import VideoTerminal.Proofs.Terminal.Print
import VideoTerminal.Proofs.Terminal.Slots

/-!
# Printing on a screen of whole characters

Printing takes care that no half of a wide character stays behind, but not everywhere: of a wide
character it writes into, it repairs the front only where the slot is the wide tail, and where it
attaches a character it repairs nothing.  `Terminal.Breaks` says when this matters, and a screen
whose rows are whole stays so exactly when it does not (`WellFormed.exists_putChar_allWhole_iff`).

The rows are followed through the parts of printing.  Moving a character to the next row and going
on there never break anything (`WellFormed.exists_wrapLastCluster_allWhole`,
`WellFormed.exists_makeRoom_allWhole`), so it is decided where the character is put at last.
-/

namespace VideoTerminal

/-- Scrolling up brings in untouched rows only. -/
theorem Page.mem_rows_scrollUp {p : Page} {top bottom cols n : Nat} {keep : Bool} {r : Row}
    (h : r ∈ (p.scrollUp top bottom cols keep n).rows) : r ∈ p.rows ∨ r = Row.new cols := by
  induction n generalizing p with
  | zero => exact .inl h
  | succ n ih =>
      rcases ih h with hold | hnew
      · unfold Page.scrollUpOnce at hold
        split at hold
        · next removed hremoved =>
          have hrows : (if keep = true then p.pushScrollback removed else p).rows = p.rows := by
            split
            · exact Page.rows_pushScrollback p _
            · rfl
          dsimp only at hold
          rw [hrows] at hold
          rcases List.eq_or_mem_of_mem_insertIdx hold with hnew | hold
          · exact .inr hnew
          · exact .inl (List.mem_of_mem_eraseIdx hold)
        · exact .inl hold
      · exact .inr hnew

namespace Terminal

/-- Going down a row brings in a new row at most. -/
theorem mem_rows_index {t : Terminal} {r : Row} (h : r ∈ t.index.active.rows) :
    r ∈ t.active.rows ∨ r = Row.new t.cols := by
  unfold index scrollUp at h
  dsimp only at h
  split at h
  · split at h
    · rw [active_modifyActive] at h
      exact Page.mem_rows_scrollUp h
    · exact .inl h
  · split at h
    · rw [active_modifyActive] at h
      exact .inl h
    · exact .inl h

/-- No row of the screen shows half of a wide character. -/
def AllWhole (t : Terminal) : Prop := ∀ slots ∈ t.grid, Slots.Whole slots

/-- Attaching a character at the cursor breaks a wide one. -/
def AttachHereBreaks (t : Terminal) (c : Char) : Prop :=
  ∃ front x back, t.grid[t.cursor.row]? = some (front ++ x :: back) ∧
    front.length = t.cursor.col ∧ Slots.AttachBreaks front x back c

/-- Writing a character at the cursor breaks a wide one. -/
def WriteHereBreaks (t : Terminal) : Prop :=
  ∃ front x back, t.grid[t.cursor.row]? = some (front ++ x :: back) ∧
    front.length = t.cursor.col ∧ Slots.WriteBreaks front x back

/-- Attaching a character breaks a wide one, at the cursor or, behind the last column, on the next
row. -/
def AttachBreaks (t : Terminal) (c : Char) : Prop :=
  if t.cols ≤ t.cursor.col then
    t.has .autoWrap ∧ ∃ t', t.wrapLastCluster = .ok (some t') ∧ t'.AttachHereBreaks c
  else t.AttachHereBreaks c

/-- Printing a character breaks a wide one, there where room is made for it. -/
def Breaks (t : Terminal) (c : Char) : Prop :=
  match Text.columns? c with
  | none => False
  | some w =>
    if w = 0 ∨ extendsPrevious t.previousScalar? c then t.AttachBreaks c
    else w ≤ t.cols ∧ ∃ t', t.makeRoom w = .ok t' ∧ t'.WriteHereBreaks

section

variable {t : Terminal} {front back : List Char} {x : Char}

/-- The cursor tells where its row is split. -/
theorem split_eq {front' back' : List Char} {x' : Char}
    (hrow : t.grid[t.cursor.row]? = some (front ++ x :: back)) (hcol : t.cursor.col = front.length)
    (hrow' : t.grid[t.cursor.row]? = some (front' ++ x' :: back'))
    (hcol' : front'.length = t.cursor.col) : front' = front ∧ x' = x ∧ back' = back := by
  have heq := Option.some.inj (hrow'.symm.trans hrow)
  obtain ⟨hfront, hback⟩ := List.append_inj heq (hcol'.trans hcol)
  exact ⟨hfront, List.cons.inj hback⟩

/-- A mark breaks its row where attaching to its slots breaks them. -/
theorem attachHereBreaks_iff (hrow : t.grid[t.cursor.row]? = some (front ++ x :: back))
    (hcol : t.cursor.col = front.length) (c : Char) :
    t.AttachHereBreaks c ↔ Slots.AttachBreaks front x back c := by
  refine ⟨?_, fun h => ⟨front, x, back, hrow, hcol.symm, h⟩⟩
  rintro ⟨front', x', back', hrow', hcol', h⟩
  obtain ⟨rfl, rfl, rfl⟩ := split_eq hrow hcol hrow' hcol'
  exact h

/-- A character breaks its row where writing in its slots breaks them. -/
theorem writeHereBreaks_iff (hrow : t.grid[t.cursor.row]? = some (front ++ x :: back))
    (hcol : t.cursor.col = front.length) : t.WriteHereBreaks ↔ Slots.WriteBreaks front x back := by
  refine ⟨?_, fun h => ⟨front, x, back, hrow, hcol.symm, h⟩⟩
  rintro ⟨front', x', back', hrow', hcol', h⟩
  obtain ⟨rfl, rfl, rfl⟩ := split_eq hrow hcol hrow' hcol'
  exact h

end

/-- At the cursor there are `k + 1` slots, and where `c` is written it begins a character: it does
not belong to the one before, or no slot comes after it. -/
def HasRoom (t : Terminal) (c : Char) (k : Nat) : Prop :=
  ∃ front x covered back, t.grid[t.cursor.row]? = some (front ++ x :: (covered ++ back)) ∧
    t.cursor.col = front.length ∧ covered.length = k ∧
    (extendsPrevious front.getLast? c = false ∨ covered ++ back = [])

namespace AllWhole

variable {t t' : Terminal} {row col : Nat} {slots : List Char}

/-- A row of a terminal of whole rows is whole. -/
theorem whole (h : t.AllWhole) (hrow : t.grid[row]? = some slots) : Slots.Whole slots :=
  h slots (List.mem_of_getElem? hrow)

/-- It depends on the new slots alone whether the screen is still whole. -/
theorem repainted_iff (h : t.AllWhole) (hpainted : t.Repainted t' row slots col)
    (hrow : row < t.grid.length) : t'.AllWhole ↔ Slots.Whole slots := by
  constructor
  · exact fun h' => h'.whole (hpainted.getElem?_grid hrow)
  · intro hslots other hother
    rw [hpainted.grid_eq] at hother
    rcases List.mem_or_eq_of_mem_set hother with hold | rfl
    · exact h other hold
    · exact hslots

/-- Going to the next row brings in an untouched row at most. -/
theorem index (h : t.AllWhole) : t.index.AllWhole := by
  intro slots hslots
  have hmem : slots ∈ t.grid ∨ slots = Cells.slots (Row.new t.cols).cells := by
    obtain ⟨r, hr, rfl⟩ := List.mem_map.mp hslots
    rcases mem_rows_index hr with hold | rfl
    · exact .inl (List.mem_map.mpr ⟨r, hold, rfl⟩)
    · exact .inr rfl
  rcases hmem with hold | rfl
  · exact h slots hold
  · rw [Row.new, Cells.slots, List.map_replicate]
    exact (Slots.follows_replicate _).whole

/-- Attaching a character before the margin. -/
theorem exists_attachHere {front back : List Char} {x c : Char} (h : t.AllWhole)
    (hrow : t.grid[t.cursor.row]? = some (front ++ x :: back)) (hcol : t.cursor.col = front.length)
    (hc : c ≠ wideTail) (hext : extendsPrevious (Slots.scalarBefore front) c = true) :
    ∃ t', t.attachHere c = .ok t' ∧ (t'.AllWhole ↔ ¬ t.AttachHereBreaks c) := by
  obtain ⟨t', hok, hpainted⟩ := exists_attachHere_slots c hrow hcol
  refine ⟨t', hok, ?_⟩
  rw [h.repainted_iff hpainted (List.getElem?_eq_some_iff.mp hrow).1,
    attachHereBreaks_iff hrow hcol]
  exact (h.whole hrow).whole_attach_iff hc hext

/-- Writing a character where there is room for it. -/
theorem exists_overwrite {c : Char} {k : Nat} {p : Option Char} (h : t.AllWhole)
    (hroom : t.HasRoom c k) (hwidth : Text.columns? c = some (k + 1))
    (hlead : extendsPrevious p c = false) :
    ∃ t', (t.releaseCovered t.cursor.row t.cursor.col (k + 1) >>= fun released =>
        released.writeHere c (k + 1)) = .ok t' ∧ (t'.AllWhole ↔ ¬ t.WriteHereBreaks) := by
  obtain ⟨front, x, covered, back, hrow, hcol, rfl, hfront⟩ := hroom
  obtain ⟨front', back', t', hreleased, hok, hpainted⟩ := exists_overwrite_slots hrow hcol hwidth
  refine ⟨t', hok, ?_⟩
  rw [h.repainted_iff hpainted (List.getElem?_eq_some_iff.mp hrow).1, writeHereBreaks_iff hrow hcol]
  exact hreleased.whole_closed_iff (h.whole hrow) hlead hfront

end AllWhole

/-- Slots can be cut around those that a character covers. -/
theorem exists_split {slots : List Char} {n k : Nat} (h : n + (k + 1) ≤ slots.length) :
    ∃ front x covered back, slots = front ++ x :: (covered ++ back) ∧ n = front.length ∧
      covered.length = k := by
  obtain ⟨x, rest, hrest⟩ : ∃ x rest, slots.drop n = x :: rest := by
    refine List.exists_cons_of_ne_nil fun hnil => ?_
    have hlen := congrArg List.length hnil
    rw [List.length_drop, List.length_nil] at hlen
    omega
  have hlen := congrArg List.length hrest
  rw [List.length_drop, List.length_cons] at hlen
  refine ⟨slots.take n, x, rest.take k, rest.drop k, ?_, ?_, ?_⟩
  · rw [List.take_append_drop, ← hrest, List.take_append_drop]
  · rw [List.length_take]
    omega
  · rw [List.length_take]
    omega

namespace WellFormed

variable {t t' : Terminal} {cols rows limit : Nat}

/-- The slots of the cursor's row. -/
theorem exists_cursorSlots (h : t.WellFormed cols rows limit) :
    ∃ slots, t.grid[t.cursor.row]? = some slots ∧ slots.length = cols := by
  obtain ⟨r, hr, hlen⟩ := h.exists_cursorRow
  exact ⟨_, getElem?_grid_eq_some_iff.mpr ⟨r, hr, rfl⟩, by rw [Cells.length_slots, hlen]⟩

/-- Repainting a row with as many slots. -/
theorem repainted {row col : Nat} {slots : List Char} (h : t.WellFormed cols rows limit)
    (hpainted : t.Repainted t' row slots col) (hlen : slots.length = cols) (hcol : col ≤ cols) :
    t'.WellFormed cols rows limit := by
  have hmodified : (t.modifyActive fun _ => t'.active).WellFormed cols rows limit := by
    refine h.modifyActive fun shown hp => ?_
    refine ⟨?_, ?_, ?_, ?_, ?_, ?_⟩
    · rw [hpainted.length_rows]
      exact hp.length_rows
    · intro r hr
      have hslots : r.cells.slots ∈ t.grid.set row slots :=
        hpainted.grid_eq ▸ List.mem_map.mpr ⟨r, hr, rfl⟩
      rw [← Cells.length_slots]
      rcases List.mem_or_eq_of_mem_set hslots with hold | hnew
      · obtain ⟨old, hmem, hold⟩ := List.mem_map.mp hold
        rw [← hold, Cells.length_slots]
        exact hp.length_cells old hmem
      · rw [hnew, hlen]
    · rw [hpainted.scrollback_eq]
      exact hp.length_history
    · have hcursor : t'.active.cursor = { t.cursor with col := col } := hpainted.cursor_eq
      rw [hcursor]
      exact ⟨h.cursor.row_lt, hcol, h.cursor.saved⟩
    · rw [hpainted.limit_eq]
      exact hp.limit_eq
    · rw [hpainted.scrollback_eq]
      exact hp.size_history
  rw [← hpainted.frame] at hmodified
  exact hmodified

/-- Moving the last character of a row down breaks nothing, and there is a slot behind it. -/
theorem exists_wrapLastCluster_of_lead (h : t.WellFormed cols rows limit) (hwhole : t.AllWhole)
    {front marks : List Char} {lead : Char}
    (hrow : t.grid[t.cursor.row]? = some (front ++ lead :: marks))
    (hlen : (front ++ lead :: marks).length = cols)
    (hmarks : Slots.attached (some lead) marks = marks)
    (hlead : extendsPrevious front.getLast? lead = false) (hfront : front ≠ []) :
    ∃ t' x back, t.wrapLastCluster = .ok (some t') ∧ t'.AllWhole ∧
      t'.grid[t'.cursor.row]? = some (lead :: marks ++ x :: back) ∧
      t'.cursor.col = (lead :: marks).length := by
  obtain ⟨t₁, hpainted, hmove⟩ :=
    exists_wrapLastCluster_slots hrow (hlen.trans h.cols_eq.symm) hmarks hlead hfront
  obtain ⟨hfrontWhole, hmoved⟩ := (hwhole.whole hrow).of_append hlead
  have hsum : front.length + (marks.length + 1) = cols := by
    rw [← hlen, List.length_append, List.length_cons]
  have hwhole₁ : t₁.AllWhole :=
    (hwhole.repainted_iff hpainted (List.getElem?_eq_some_iff.mp hrow).1).mpr
      (hfrontWhole.append (Slots.follows_replicate _))
  have h₁ : t₁.WellFormed cols rows limit :=
    h.repainted hpainted (by simpa using hsum) (Nat.zero_le cols)
  obtain ⟨below, hbelow, hbelowLen⟩ := h₁.index.exists_cursorSlots
  obtain ⟨none, x, covered, back, rfl, hnone, hcovered⟩ :=
    exists_split (by omega : 0 + (marks.length + 1) ≤ below.length)
  obtain rfl := List.eq_nil_of_length_eq_zero hnone.symm
  obtain ⟨back', t', hreleased, hok, hpainted'⟩ := hmove x covered back hbelow hcovered
  have hlt := (List.getElem?_eq_some_iff.mp hbelow).1
  have hrow' := hpainted'.getElem?_grid hlt
  have hwhole' : t'.AllWhole :=
    (hwhole₁.index.repainted_iff hpainted' hlt).mpr
      (hmoved.whole.append (hreleased.follows (hwhole₁.index.whole hbelow)))
  -- Something stood before the character, so that it does not fill its new row.
  have hback : back' ≠ [] := by
    intro hnil
    have hlen' := hreleased.length_back
    rw [hnil] at hlen'
    simp only [List.nil_append, List.length_cons, List.length_append, List.length_nil,
      hcovered] at hbelowLen hlen'
    have hpos := List.length_pos_of_ne_nil hfront
    omega
  obtain ⟨y, rest, rfl⟩ := List.exists_cons_of_ne_nil hback
  rw [← hpainted'.row_eq] at hrow'
  exact ⟨t', y, rest, hok, hwhole', hrow', hpainted'.col_eq⟩

/-- Whatever the row shows last, what was to be attached to it still is. -/
theorem exists_wrapLastCluster_allWhole (h : t.WellFormed cols rows limit) (hwhole : t.AllWhole)
    (hmargin : cols ≤ t.cursor.col) {c : Char}
    (hext : extendsPrevious t.previousScalar? c = true) :
    t.wrapLastCluster = .ok none ∨
      ∃ t' front x back, t.wrapLastCluster = .ok (some t') ∧ t'.AllWhole ∧
        t'.grid[t'.cursor.row]? = some (front ++ x :: back) ∧ t'.cursor.col = front.length ∧
        extendsPrevious (Slots.scalarBefore front) c = true := by
  obtain ⟨slots, hrow, hlen⟩ := h.exists_cursorSlots
  by_cases hnil : slots = []
  · subst hnil
    exact .inl (wrapLastCluster_of_nil hrow)
  · obtain ⟨front, lead, marks, rfl, hmarks, hlead⟩ := Slots.exists_last_character hnil
    by_cases hfront : front = []
    · subst hfront
      exact .inl (wrapLastCluster_of_fills hrow (hlen.trans h.cols_eq.symm) hmarks)
    · replace hlead := hlead.resolve_left hfront
      obtain ⟨t', x, back, hok, hwhole', hrow', hcol'⟩ :=
        h.exists_wrapLastCluster_of_lead hwhole hrow hlen hmarks hlead hfront
      refine .inr ⟨t', lead :: marks, x, back, hok, hwhole', hrow', hcol', ?_⟩
      have hcol : t.cursor.col = (front ++ lead :: marks).length := by
        rw [hlen]
        exact Nat.le_antisymm h.cursor.col_le hmargin
      have hne : lead ≠ wideTail := by
        rintro rfl
        cases hlead
      have hall : t.grid[t.cursor.row]? = some (front ++ lead :: marks ++ []) := by
        rw [List.append_nil]
        exact hrow
      rw [previousScalar?_eq hall hcol, Slots.scalarBefore_append_cons front marks hne] at hext
      exact hext

/-- **Attaching** leaves all rows whole unless it breaks one. -/
theorem exists_attach_allWhole_iff (h : t.WellFormed cols rows limit) (hwhole : t.AllWhole)
    {c : Char} (hc : c ≠ wideTail) (hext : extendsPrevious t.previousScalar? c = true) :
    ∃ t', t.attach c = .ok t' ∧ (t'.AllWhole ↔ ¬ t.AttachBreaks c) := by
  have hrow : ¬ t.active.rows.length ≤ t.cursor.row := by
    have hlt := h.cursor.row_lt
    have hlen := h.length_rows
    omega
  unfold attach AttachBreaks
  rw [if_neg hrow, h.cols_eq]
  by_cases hmargin : cols ≤ t.cursor.col
  · rw [if_pos hmargin, if_pos hmargin]
    by_cases hwrap : t.has .autoWrap = true
    · rw [if_pos hwrap]
      rcases h.exists_wrapLastCluster_allWhole hwhole hmargin hext with
        hok | ⟨moved, front, x, back, hok, hmoved, hrow, hcol, hext⟩
      · exact ⟨t, by rw [hok]; rfl, iff_of_true hwhole (by simp [hok])⟩
      · obtain ⟨t', hattach, hiff⟩ := hmoved.exists_attachHere hrow hcol hc hext
        refine ⟨t', by rw [hok]; exact hattach, ?_⟩
        rw [hiff, hok]
        simp [hwrap]
    · rw [if_neg hwrap]
      exact ⟨t, rfl, iff_of_true hwhole fun hbreaks => hwrap hbreaks.1⟩
  · rw [if_neg hmargin, if_neg hmargin]
    obtain ⟨slots, hslots, hlen⟩ := h.exists_cursorSlots
    obtain ⟨front, x, covered, back, rfl, hcol, -⟩ :=
      exists_split (by omega : t.cursor.col + (0 + 1) ≤ slots.length)
    have hall : t.grid[t.cursor.row]? = some (front ++ x :: (covered ++ back) ++ []) := by
      rw [List.append_nil]
      exact hslots
    rw [List.append_assoc] at hall
    rw [previousScalar?_eq hall hcol] at hext
    exact hwhole.exists_attachHere hslots hcol hc hext

/-- There is room in the cursor's row if enough slots are left. -/
theorem hasRoom_of_le (h : t.WellFormed cols rows limit) {c : Char} {k : Nat}
    (hlead : extendsPrevious t.previousScalar? c = false) (hle : t.cursor.col + (k + 1) ≤ cols) :
    t.HasRoom c k := by
  obtain ⟨slots, hslots, hlen⟩ := h.exists_cursorSlots
  obtain ⟨front, x, covered, back, rfl, hcol, hcovered⟩ := exists_split (hlen ▸ hle)
  rw [previousScalar?_eq hslots hcol] at hlead
  exact ⟨front, x, covered, back, hslots, hcol, hcovered,
    .inl (Slots.extendsPrevious_getLast?_eq_false hlead)⟩

/-- Going on in the next row, from its start. -/
theorem exists_wrapRow_allWhole (h : t.WellFormed cols rows limit) (hwhole : t.AllWhole) {c : Char}
    {k : Nat} {p : Option Char} (hlead : extendsPrevious p c = false) (hfit : k + 1 ≤ cols) :
    ∃ t', t.wrapRow = .ok t' ∧ t'.AllWhole ∧ t'.has .insertMode = t.has .insertMode ∧
      t'.HasRoom c k := by
  obtain ⟨slots, hslots, hlen⟩ := h.exists_cursorSlots
  obtain ⟨t₁, hpainted, hok⟩ := exists_wrapRow_slots hslots
  have hlt := (List.getElem?_eq_some_iff.mp hslots).1
  have h₁ := h.repainted hpainted hlen (Nat.zero_le cols)
  have hwhole₁ := (hwhole.repainted_iff hpainted hlt).mpr (hwhole.whole hslots)
  obtain ⟨below, hbelow, hbelowLen⟩ := h₁.index.exists_cursorSlots
  obtain ⟨none, x, covered, back, rfl, hnone, hcovered⟩ :=
    exists_split (by omega : 0 + (k + 1) ≤ below.length)
  obtain rfl := List.eq_nil_of_length_eq_zero hnone.symm
  refine ⟨t₁.index, hok, hwhole₁.index, ?_, [], x, covered, back, hbelow, ?_, hcovered, .inl ?_⟩
  · rw [has_index, hpainted.has_eq]
  · rw [col_index, hpainted.col_eq, List.length_nil]
  · exact extendsPrevious_eq_false_of_ne hlead (by simp)

/-- In the last columns. -/
theorem hasRoom_moveToCol (h : t.WellFormed cols rows limit) {c : Char} {k : Nat} {p : Option Char}
    (hwidth : Text.columns? c = some (k + 1)) (hlead : extendsPrevious p c = false)
    (hfit : k + 1 ≤ cols) :
    (t.modifyActive fun q => q.moveToCol (cols - (k + 1))).HasRoom c k := by
  obtain ⟨slots, hslots, hlen⟩ := h.exists_cursorSlots
  obtain ⟨front, x, covered, back, rfl, hfront, hcovered⟩ :=
    exists_split (by omega : cols - (k + 1) + (k + 1) ≤ slots.length)
  obtain rfl : back = [] := by
    refine List.eq_nil_of_length_eq_zero ?_
    simp only [List.length_append, List.length_cons] at hlen
    omega
  refine ⟨front, x, covered, [], ?_, ?_, hcovered, ?_⟩
  · unfold grid
    rw [active_modifyActive, cursor_modifyActive]
    exact hslots
  · rw [cursor_modifyActive]
    exact hfront
  · cases hlast : extendsPrevious front.getLast? c with
    | false => exact .inl rfl
    | true =>
        -- Only a narrow character may have to do with the one before the last column.
        have hone := (eq_joiner_of_extendsPrevious hlast hlead).2
        have hzero : covered.length = 0 := by
          rw [hwidth, Option.some.injEq] at hone
          omega
        rw [List.eq_nil_of_length_eq_zero hzero]
        exact .inr rfl

/-- Making room for a character breaks nothing. -/
theorem exists_makeRoom_allWhole (h : t.WellFormed cols rows limit) (hwhole : t.AllWhole)
    {c : Char} {k : Nat} (hwidth : Text.columns? c = some (k + 1)) (hfit : k + 1 ≤ cols)
    (hlead : extendsPrevious t.previousScalar? c = false) :
    ∃ t', t.makeRoom (k + 1) = .ok t' ∧ t'.AllWhole ∧
      t'.has .insertMode = t.has .insertMode ∧ t'.HasRoom c k := by
  have htwo := Text.columns?_le_two hwidth
  have hmax := h.addressable.cols_le
  have hcolLe := h.cursor.col_le
  rw [makeRoom_of_le (by omega), h.cols_eq]
  by_cases hover : cols < t.cursor.col + (k + 1)
  · rw [if_pos hover]
    by_cases hwrap : t.has .autoWrap = true
    · rw [if_pos hwrap]
      exact h.exists_wrapRow_allWhole hwhole hlead hfit
    · rw [if_neg hwrap]
      refine ⟨_, rfl, ?_, has_modifyActive .., h.hasRoom_moveToCol hwidth hlead hfit⟩
      unfold AllWhole grid
      rw [active_modifyActive]
      exact hwhole
  · rw [if_neg hover]
    exact ⟨t, rfl, hwhole, rfl, h.hasRoom_of_le hlead (Nat.not_lt.mp hover)⟩

/-- **Printing keeps every character whole** unless it breaks one.  Insertion is off, since it tears
characters apart at the end of the row. -/
theorem exists_putChar_allWhole_iff (h : t.WellFormed cols rows limit) (hwhole : t.AllWhole)
    (hinsert : t.has .insertMode = false) {c : Char} (hc : c ≠ wideTail) :
    ∃ t', t.putChar c = .ok t' ∧ (t'.AllWhole ↔ ¬ t.Breaks c) := by
  unfold Breaks
  cases hw : Text.columns? c with
  | none => exact ⟨t, by rw [putChar_eq, hw]; rfl, iff_of_true hwhole id⟩
  | some w =>
      dsimp only
      cases hext : extendsPrevious t.previousScalar? c with
      | true =>
          rw [if_pos (.inr rfl), putChar_of_attached hw hext]
          exact h.exists_attach_allWhole_iff hwhole hc hext
      | false =>
          have hpos : w ≠ 0 := by
            rintro rfl
            rw [extendsPrevious_of_columns?_eq_zero hw] at hext
            cases hext
          rw [if_neg (by simp [hpos]), h.cols_eq]
          by_cases hwide : cols < w
          · refine ⟨t, ?_, iff_of_true hwhole fun hbreaks => Nat.not_lt.mpr hbreaks.1 hwide⟩
            exact putChar_of_lt hw hext (h.cols_eq ▸ hwide)
          · obtain ⟨k, rfl⟩ := Nat.exists_eq_succ_of_ne_zero hpos
            obtain ⟨roomy, hroom, hroomy, hmode, hplace⟩ :=
              h.exists_makeRoom_allWhole hwhole hw (Nat.not_lt.mp hwide) hext
            obtain ⟨t', hok, hiff⟩ := hroomy.exists_overwrite hplace hw hext
            refine ⟨t', ?_, ?_⟩
            · rw [← hok]
              exact putChar_of_makeRoom_ok hw hext (h.cols_eq ▸ Nat.not_lt.mp hwide) hroom
                (hmode.trans hinsert)
            · rw [hiff, hroom]
              simp [Nat.not_lt.mp hwide]

/-- A wide character with a mark, and the cursor on the mark. -/
def cursorOnMark : Terminal :=
  { Terminal.new 5 1 0 with
    primary :=
      { Page.new 5 1 0 with
        rows := [⟨['\u4E2D', '\u0301', wideTail, ' ', ' '].map fun c => { char := c }, false⟩]
        cursor := { col := 1 } } }

/-- The example is well-formed. -/
theorem wellFormed_cursorOnMark : cursorOnMark.WellFormed 5 1 0 :=
  { WellFormed.new (by decide : Addressable 5 1) 0 with
    primary :=
      { Page.WellFormed.new (by decide : 0 < 1) with
        length_rows := rfl
        length_cells := by decide
        cursor := ⟨by decide, by decide, by simp [cursorOnMark]⟩ } }

/-- All rows of the example are whole. -/
theorem allWhole_cursorOnMark : cursorOnMark.AllWhole := by
  intro slots hslots
  obtain rfl : slots = ['\u4E2D', '\u0301', wideTail, ' ', ' '] := List.mem_singleton.mp hslots
  exact Slots.whole_iff_accepts.mpr ⟨.narrow, by decide +kernel, by decide⟩

/-- Another mark in its place. -/
theorem exists_putChar_allWhole_iff_mark :
    ∃ t', cursorOnMark.putChar '\u0300' = .ok t' ∧
      (t'.AllWhole ↔ ¬ cursorOnMark.Breaks '\u0300') :=
  exists_putChar_allWhole_iff wellFormed_cursorOnMark allWhole_cursorOnMark (by decide) (by decide)

/-- A letter in its place takes the mark and the tail behind it away, and the wide character is left
without a tail. -/
theorem not_allWhole_putChar :
    ¬ ∀ (t : Terminal) (cols rows limit : Nat) (c : Char), t.WellFormed cols rows limit →
      t.AllWhole → t.has .insertMode = false → c ≠ wideTail →
        ∀ t', t.putChar c = .ok t' → t'.AllWhole := by
  intro hall
  obtain ⟨t', hok, -⟩ := wellFormed_cursorOnMark.exists_putChar 'A'
  have hgrid : (cursorOnMark.putChar 'A').toOption.map grid =
      some [['\u4E2D', 'A', ' ', ' ', ' ']] := by decide +kernel
  rw [hok] at hgrid
  have hwhole := hall _ _ _ _ _ wellFormed_cursorOnMark allWhole_cursorOnMark (by decide)
    (by decide) t' hok ['\u4E2D', 'A', ' ', ' ', ' '] ?_
  · obtain ⟨g, hread, -⟩ := Slots.whole_iff_accepts.mp hwhole
    have hnone : Glyph.narrow.read none ['\u4E2D', 'A', ' ', ' ', ' '] = none := by decide +kernel
    rw [hnone] at hread
    cases hread
  · rw [Option.some.inj hgrid]
    exact List.mem_singleton.mpr rfl

end WellFormed

end Terminal

end VideoTerminal
