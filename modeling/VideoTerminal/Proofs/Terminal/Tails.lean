import VideoTerminal.Proofs.Line.Tails
import VideoTerminal.Proofs.Terminal.Run
import VideoTerminal.Proofs.Terminal.Sheet

/-!
# Whose tails are on the screen

The terminal closes a wide character with a wide tail, a character of its own that it takes from
those for private use.  A program may print that character as well, and printing takes it for a
mark: it is put to the character before the cursor and is then one tail among the others.  Only
where a mark is dropped, behind a row that is filled by one character, it is dropped as well
(`Terminal.NoRoom`).

So the rows that a text leaves have tails of the terminal's own and no others exactly if the text
has none, but for tails that are dropped (`Terminal.ownTails_iff`).
-/

namespace VideoTerminal

namespace Sheet

variable {cols : Nat} {s : Sheet}

/-- Marks are dropped: one character fills the row. -/
def NoRoom (cols : Nat) (s : Sheet) : Prop :=
  cols ≤ s.front.length ∧ Terminal.lastClusterStart s.front (cols - 1) = 0

/-- A tail that is printed is attached. -/
theorem put_wideTail (cols : Nat) (s : Sheet) : s.put cols wideTail = s.attach cols wideTail := by
  have hwidth : Text.columns? wideTail = some 1 := by decide +kernel
  unfold put
  rw [hwidth]
  dsimp only
  rw [if_pos (extendsPrevious_wideTail _)]

/-- Where there is no room a tail is dropped. -/
theorem put_wideTail_of_noRoom (h : s.NoRoom cols) : s.put cols wideTail = s := by
  rw [put_wideTail, attach, if_neg (Nat.not_lt.mpr h.1)]
  dsimp only
  rw [if_pos h.2]

/-- Elsewhere the tail comes to stand behind composed cells. -/
theorem Composed.exists_front_put_wideTail (h : s.Composed cols) (hroom : ¬ s.NoRoom cols) :
    ∃ front, Cells.Composed front ∧ (s.put cols wideTail).front = front.mark wideTail s.style := by
  have hfits := h.fits
  rw [put_wideTail, Sheet.attach]
  by_cases hlt : s.front.length < cols
  · rw [if_pos hlt]
    exact ⟨s.front, h.front, rfl⟩
  · have hspec := lastClusterStart_spec s.front (cols - 1)
    have hle := Terminal.lastClusterStart_le s.front (cols - 1)
    have hpos : Terminal.lastClusterStart s.front (cols - 1) ≠ 0 :=
      fun hzero => hroom ⟨Nat.not_lt.mp hlt, hzero⟩
    rw [if_neg hlt]
    dsimp only
    rw [if_neg hpos]
    exact ⟨_, (h.front.cut (by omega) (hspec.resolve_left hpos)).2.1, rfl⟩

end Sheet

namespace Terminal

/-- One character fills the cursor's row, and the cursor stands behind it. -/
def NoRoom (t : Terminal) : Prop :=
  t.cols ≤ t.cursor.col ∧ ∃ lead marks, t.grid[t.cursor.row]? = some (lead :: marks) ∧
    Slots.attached (some lead) marks = marks

namespace Displays

variable {t t' : Terminal} {cols limit : Nat} {s : Sheet} {c : Char}

/-- The terminal has no room where the sheet has none. -/
theorem noRoom_iff (h : t.Displays cols limit s) (hcols : 1 ≤ cols) :
    t.NoRoom ↔ s.NoRoom cols := by
  obtain ⟨r, hr, hcells⟩ := h.exists_cursorRow
  have hrow : t.grid[t.cursor.row]? = some (s.front.pad cols).slots :=
    getElem?_grid_eq_some_iff.mpr ⟨r, hr, by rw [hcells]⟩
  unfold NoRoom Sheet.NoRoom
  rw [h.plain.cols_eq, h.col_eq, hrow]
  refine and_congr_right fun hfull => ?_
  have hlen : s.front.length = cols := Nat.le_antisymm h.fits hfull
  have hslots : (s.front.pad cols).slots = s.front.slots := by
    rw [Cells.slots_pad, hlen, Nat.sub_self, List.replicate_zero, List.append_nil]
  rw [hslots]
  have hne : s.front.slots ≠ [] := by
    intro hnil
    rw [← hlen, ← Cells.length_slots, hnil] at hcols
    exact absurd hcols (by decide)
  constructor
  · rintro ⟨lead, marks, hsplit, hmarks⟩
    have hsplit : s.front.slots = [] ++ lead :: marks ++ [] := by
      rw [List.nil_append, List.append_nil]
      exact Option.some.inj hsplit
    have hstart := lastClusterStart_eq hsplit hmarks (.inl rfl)
    have hcount : cols - 1 = ([] : List Char).length + marks.length := by
      rw [← hlen, ← Cells.length_slots, hsplit]
      simp
    rw [hcount]
    exact hstart
  · intro hstart
    obtain ⟨front, lead, marks, hsplit, hmarks, hlead⟩ := Slots.exists_last_character hne
    have hsplit' : s.front.slots = front ++ lead :: marks ++ [] := by
      rw [List.append_nil]
      exact hsplit
    have hfound := lastClusterStart_eq hsplit' hmarks hlead
    have hcount : cols - 1 = front.length + marks.length := by
      rw [← hlen, ← Cells.length_slots, hsplit]
      simp
    rw [← hcount, hstart] at hfound
    rw [List.eq_nil_of_length_eq_zero hfound.symm, List.nil_append] at hsplit
    exact ⟨lead, marks, congrArg some hsplit, hmarks⟩

/-- Printing a tail always succeeds. -/
theorem exists_putChar_wideTail (h : t.Displays cols limit s) :
    ∃ t', t.putChar wideTail = .ok t' ∧ t'.Displays cols limit (s.put cols wideTail) := by
  have hwidth : Text.columns? wideTail = some 1 := by decide +kernel
  rw [putChar_of_attached hwidth (extendsPrevious_wideTail _), Sheet.put_wideTail]
  exact h.exists_attach wideTail

/-- A composed sheet has tails of the terminal's own only. -/
theorem ownTails_of_composed (h : t.Displays cols limit s) (hs : s.Composed cols) :
    ∀ slots ∈ t.shown, Slots.OwnTails slots := by
  intro slots hslots
  obtain ⟨r, hr, rfl⟩ := List.mem_map.mp hslots
  have hcells : Cells.Composed r.cells := by
    rcases List.mem_append.mp hr with hold | hrow
    · exact (hs.past r.cells (h.history r hold)).1
    · have hmem : r.cells ∈ s.screen cols t.rows := by
        rw [← h.cells_eq]
        exact List.mem_map.mpr ⟨r, hrow, rfl⟩
      exact (hs.of_mem_screen hmem).1
  exact hcells.whole.tailsClose.ownTails

/-- A character more leaves it so unless it is a tail and there is room for it. -/
theorem composed_put (h : t.Displays cols limit s) (hcols : 1 ≤ cols) (hs : s.Composed cols)
    (hc : c = wideTail → t.NoRoom) : (s.put cols c).Composed cols := by
  by_cases htail : c = wideTail
  · subst htail
    rw [Sheet.put_wideTail_of_noRoom ((h.noRoom_iff hcols).mp (hc rfl))]
    exact hs
  · exact hs.put htail

/-- A tail for which there is room is seen where it does not belong. -/
theorem noRoom_of_ownTails (h : t.Displays cols limit s) (hcols : 1 ≤ cols) (hs : s.Composed cols)
    (h' : t'.Displays cols limit (s.put cols wideTail))
    (hown : ∀ slots ∈ t'.shown, Slots.OwnTails slots) : t.NoRoom := by
  rw [h.noRoom_iff hcols]
  by_contra hroom
  obtain ⟨front, hfront, heq⟩ := hs.exists_front_put_wideTail hroom
  obtain ⟨r, hr, hcells⟩ := h'.exists_cursorRow
  have hmem : r.cells.slots ∈ t'.shown :=
    List.mem_map.mpr ⟨r, List.mem_append_right _ (List.mem_of_getElem? hr), rfl⟩
  have hclose := (hown _ hmem).close
  rw [hcells, Cells.slots_pad, heq, Cells.slots_mark, Slots.attach_append] at hclose
  exact hfront.whole.not_tailsClose_attach _ hclose

end Displays

/-! ## Texts -/

variable {cols rows limit : Nat}

/-- The terminal shows some composed sheet. -/
def ShowsComposed (t : Terminal) (cols limit : Nat) : Prop :=
  ∃ s, t.Displays cols limit s ∧ s.Composed cols

/-- As long as no tail is printed where there is room for it, the sheet stays composed. -/
theorem showsComposed_putText (hcols : 1 ≤ cols) (hrows : 1 ≤ rows) {text : List Char}
    (htails : ∀ front t, front ++ [wideTail] <+: text →
      (Terminal.new cols rows limit).putText front = .ok t → t.ShowsComposed cols limit →
      t.NoRoom) {t' : Terminal} (hok : (Terminal.new cols rows limit).putText text = .ok t') :
    t'.ShowsComposed cols limit := by
  induction text using List.reverseRecOn generalizing t' with
  | nil =>
      obtain rfl := Except.ok.inj ((putText_nil _).symm.trans hok)
      exact ⟨{}, .new hrows, Sheet.composed_empty cols⟩
  | append_singleton text c ih =>
      rw [putText_concat] at hok
      obtain ⟨t, hbefore, hput⟩ := exists_of_bind_eq_ok hok
      obtain ⟨s, ht, hs⟩ := ih (fun front t hfront => htails front t
        (hfront.trans (List.prefix_append text [c]))) hbefore
      refine ⟨s.put cols c, ht.of_putChar hput, ht.composed_put hcols hs ?_⟩
      rintro rfl
      exact htails text t (List.prefix_refl _) hbefore ⟨s, ht, hs⟩

/-- **Tails come only from the terminal** as long as a text has none that there is room for.  On the
way, all rows of screen and history have tails of the terminal's own only, exactly if each tail in
the text meets a row that one character fills. -/
theorem ownTails_iff (hcols : 1 ≤ cols) (hrows : 1 ≤ rows) (limit : Nat) (text : List Char) :
    ((∃ t', (Terminal.new cols rows limit).putText text = .ok t') ∨
      (maxCoordinate < cols + 2 ∧
        ∃ n, (Terminal.new cols rows limit).putText text = .error (.tooFar n))) ∧
    ((∀ front t', front <+: text → (Terminal.new cols rows limit).putText front = .ok t' →
        ∀ slots ∈ t'.shown, Slots.OwnTails slots) ↔
      ∀ front t, front ++ [wideTail] <+: text →
        (Terminal.new cols rows limit).putText front = .ok t → t.NoRoom) := by
  refine ⟨?_, fun hown front t hfront hok => ?_, fun htails front t' hfront hok => ?_⟩
  · exact ((Displays.new hrows).exists_putText text).imp_left fun ⟨t', hok, _⟩ => ⟨t', hok⟩
  · -- Up to the tail the rows are as they should be, and behind it as well.
    have hstep : ∀ before t, before ++ [wideTail] <+: text →
        (Terminal.new cols rows limit).putText before = .ok t → t.ShowsComposed cols limit →
        t.NoRoom := by
      rintro before t hbefore hok ⟨s, ht, hs⟩
      obtain ⟨t', hput, ht'⟩ := ht.exists_putChar_wideTail
      refine ht.noRoom_of_ownTails hcols hs ht' (hown _ t' hbefore ?_)
      rw [putText_concat_of_ok hok, hput]
    refine hstep front t hfront hok (showsComposed_putText hcols hrows (fun before t hbefore =>
      hstep before t (hbefore.trans ((List.prefix_append front _).trans hfront))) hok)
  · obtain ⟨s, ht, hs⟩ := showsComposed_putText hcols hrows
      (fun before t hbefore hok _ => htails before t (hbefore.trans hfront) hok) hok
    exact ht.ownTails_of_composed hs

/-- Behind a wide character that fills its row a tail is dropped. -/
theorem ownTails_iff_filled :
    ∃ t', (Terminal.new 2 1 0).putText ['\u4E2D', wideTail] = .ok t' ∧
      t'.shown = [['\u4E2D', wideTail]] ∧ ∀ slots ∈ t'.shown, Slots.OwnTails slots := by
  obtain ⟨hfeed, hown⟩ :=
    ownTails_iff (by decide : 1 ≤ 2) (by decide : 1 ≤ 1) 0 ['\u4E2D', wideTail]
  obtain ⟨t', hok⟩ := hfeed.resolve_right fun h => absurd h.1 (by decide)
  have hshown : ((Terminal.new 2 1 0).putText ['\u4E2D', wideTail]).toOption.map shown =
      some [['\u4E2D', wideTail]] := by decide +kernel
  rw [hok] at hshown
  refine ⟨t', hok, Option.some.inj hshown, hown.mpr ?_ _ t' (List.prefix_refl _) hok⟩
  intro front t hfront hok
  obtain rfl : front = ['\u4E2D'] := by
    cases front with
    | nil => exact absurd (List.cons_prefix_cons.mp hfront).1 (by decide)
    | cons c front =>
        obtain ⟨rfl, hrest⟩ := List.cons_prefix_cons.mp hfront
        have hlen : (front ++ [wideTail]).length ≤ [wideTail].length := hrest.length_le
        rw [List.length_append, List.length_singleton] at hlen
        rw [List.eq_nil_of_length_eq_zero (by omega : front.length = 0)]
  have hplace : ((Terminal.new 2 1 0).putText ['\u4E2D']).toOption.map
      (fun t => (t.cols, t.cursor.col, t.grid[t.cursor.row]?)) =
      some (2, 2, some ['\u4E2D', wideTail]) := by decide +kernel
  rw [hok] at hplace
  obtain ⟨hcols, hrest⟩ := Prod.mk.inj (Option.some.inj hplace)
  obtain ⟨hcol, hrow⟩ := Prod.mk.inj hrest
  exact ⟨by rw [hcols, hcol], '\u4E2D', [wideTail], hrow, by decide +kernel⟩

/-- A tail behind a letter is taken for the tail of the letter. -/
theorem not_ownTails :
    ¬ ∀ (cols rows limit : Nat) (text : List Char) (t' : Terminal), 2 ≤ cols → 1 ≤ rows →
      (Terminal.new cols rows limit).putText text = .ok t' →
        ∀ slots ∈ t'.shown, Slots.OwnTails slots := by
  intro hall
  obtain ⟨t', hok, -⟩ := (WellFormed.new (by decide : Addressable 5 1) 0).exists_putText
    ['a', wideTail]
  have hshown : ((Terminal.new 5 1 0).putText ['a', wideTail]).toOption.map shown =
      some [['a', wideTail, ' ', ' ', ' ']] := by decide +kernel
  rw [hok] at hshown
  have hown := hall 5 1 0 _ t' (by decide) (by decide) hok ['a', wideTail, ' ', ' ', ' ']
    (by rw [Option.some.inj hshown]; exact List.mem_singleton.mpr rfl)
  obtain ⟨⟨front, lead, marks, hsplit, -, -, hwide⟩, -⟩ := hown.close ['a'] [' ', ' ', ' '] rfl
  have hlead : lead = 'a' := by
    have hmem : lead ∈ ['a'] := by
      rw [hsplit]
      exact List.mem_append_right _ List.mem_cons_self
    exact List.mem_singleton.mp hmem
  rw [hlead] at hwide
  exact absurd hwide (by decide +kernel)

end Terminal

end VideoTerminal
