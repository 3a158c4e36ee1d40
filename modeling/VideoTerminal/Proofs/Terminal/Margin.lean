import VideoTerminal.Proofs.Screen.Composed
import VideoTerminal.Proofs.Screen.History
import VideoTerminal.Proofs.Terminal.Cut
import VideoTerminal.Proofs.Terminal.Steps

/-!
# Marks at the right margin

A mark that comes when the last slot of the row is taken has no slot of its own there.  The
character that it belongs to is then moved to the next row, all of its slots in their order and with
their styles, and the mark is attached to it there; only a character that fills its row stays, and
the mark is dropped (`Terminal.moved_whole`).

The next row may be an untouched one, which comes in when the region scrolls.  The row that the
character has left then moves up with the others, or leaves the screen if no other row scrolls.
`Terminal.GoesOn` tells the two ways apart.

What stood on the next row is written over.  Marks that belong to the last slot that the character
covers are blanked first (`Cells.remains`), and one slot more goes to the mark.
-/

namespace VideoTerminal

namespace Cells

/-- The last character of some cells begins in slot `s`: this slot leads a character, or it is the
first one and none does, all slots behind it belong to it, and a wide tail among them comes last. -/
structure LastFrom (cells : Cells) (s : Nat) : Prop where
  lt : s < cells.length
  lead : s = 0 ∨ cells.isAttached s = false
  attached : ∀ i < cells.length, s < i → cells.isAttached i = true
  tail_last : ∀ cell ∈ (cells.drop s).dropLast, cell.char ≠ wideTail

/-- What stays of some cells behind the first `n` when these are written over: the marks of the last
of these are blanked. -/
def remains (cells : Cells) (n : Nat) (blank : Cell) : Cells :=
  let marks := Slots.attached (slots (cells.take n)).getLast? (slots (cells.drop n))
  List.replicate marks.length blank ++ cells.drop (n + marks.length)

variable {cells : Cells} {s n : Nat}

/-- The search for the last character finds it. -/
theorem LastFrom.lastClusterStart_eq (h : cells.LastFrom s) {i : Nat} (hle : s ≤ i)
    (hlt : i < cells.length) : Terminal.lastClusterStart cells i = s := by
  induction i with
  | zero => exact (Nat.le_zero.mp hle).symm
  | succ i ih =>
      unfold Terminal.lastClusterStart
      rcases Nat.eq_or_lt_of_le hle with rfl | hbehind
      · have hlead : cells.isAttached (i + 1) = false := h.lead.resolve_left (Nat.succ_ne_zero i)
        have hne : cells.line (i + 1) ≠ some wideTail := by
          intro htail
          have hattached : cells.isAttached (i + 1) = true := Line.isStructural_of_wideTail htail
          rw [hlead] at hattached
          cases hattached
        rw [if_neg (by simp [hlead, hne])]
      · rw [if_pos (by simp [h.attached (i + 1) hlt hbehind])]
        exact ih (Nat.le_of_lt_succ hbehind) (Nat.lt_of_succ_lt hlt)

/-- What remains of a row is as long as its end. -/
theorem length_remains (cells : Cells) (n : Nat) (blank : Cell) :
    (cells.remains n blank).length = cells.length - n := by
  obtain ⟨rest, hrest, -⟩ :=
    Slots.exists_eq_attached_append (slots (cells.take n)).getLast? (slots (cells.drop n))
  have hlength := congrArg List.length hrest
  rw [length_slots, List.length_drop, List.length_append] at hlength
  unfold remains
  dsimp only
  rw [List.length_append, List.length_replicate, List.length_drop]
  omega

/-- Writing over the first cells releases the marks of the last of them. -/
theorem releaseCovered_zero (hn : n ≤ cells.length) (blank : Cell) :
    releaseCovered cells 0 n blank = cells.take n ++ cells.remains n blank := by
  have hslots : cells.slots = slots (cells.take n) ++ slots (cells.drop n) := by
    rw [← slots_append, List.take_append_drop]
  have hend := attachedEnd_eq hslots
  obtain ⟨rest, hrest, -⟩ :=
    Slots.exists_eq_attached_append (slots (cells.take n)).getLast? (slots (cells.drop n))
  unfold remains
  dsimp only
  generalize Slots.attached (slots (cells.take n)).getLast? (slots (cells.drop n)) = marks
    at hend hrest ⊢
  have hlength := congrArg List.length hrest
  rw [length_slots, List.length_drop, List.length_append] at hlength
  rw [length_slots, length_slots, List.length_drop, List.length_take, Nat.min_eq_left hn] at hend
  have htake : (cells.take n).length = n := List.length_take_of_le hn
  have hmarks : ((cells.drop n).take marks.length).length = marks.length := by
    rw [List.length_take, List.length_drop]
    omega
  have hparts : cells = cells.take n ++ (cells.drop n).take marks.length ++
      cells.drop (n + marks.length) := by
    rw [List.append_assoc, ← List.drop_drop, List.take_append_drop, List.take_append_drop]
  unfold releaseCovered
  split
  · dsimp only
    rw [leadBefore, fill_self, ite_self, Nat.zero_add, Nat.min_eq_left hn, hend]
    have hfill := fill_append (cells.take n) ((cells.drop n).take marks.length)
      (cells.drop (n + marks.length)) blank
    rw [← hparts, htake, hmarks] at hfill
    rw [hfill, List.append_assoc]
  · next hnil =>
    obtain rfl : cells = [] := List.eq_nil_of_length_eq_zero (by omega)
    obtain rfl : marks = [] := List.eq_nil_of_length_eq_zero (by simp at hlength; omega)
    simp

/-- The last character with one more mark, which comes behind its others and before its tail. -/
theorem LastFrom.exists_mark_eq (h : cells.LastFrom s) (c : Char) (style : Style) :
    ∃ body closing last, cells.drop s = body ++ closing ∧
      (∀ cell ∈ body, cell.char ≠ wideTail) ∧
      (closing = [] ∨ ∃ tail, closing = [tail] ∧ tail.char = wideTail) ∧
      cells.getLast? = some last ∧
      mark (cells.drop s) c style = body ++ ⟨c, last.style⟩ :: closing := by
  have htail := h.tail_last
  have hlast : cells.getLast? = (cells.drop s).getLast? := by
    rw [List.getLast?_drop, if_neg (Nat.not_le.mpr h.lt)]
  rcases mark_cases (cells.drop s) c style with ⟨hnil, -⟩ | ⟨before, last, hparts, hchar, hmark⟩ |
    ⟨before, last, hparts, hchar, hmark⟩
  · exact absurd (List.drop_eq_nil_iff.mp hnil) (Nat.not_le.mpr h.lt)
  · rw [hparts, List.dropLast_concat] at htail
    rw [hparts, List.getLast?_concat] at hlast
    exact ⟨before, [last], last, hparts, htail, .inr ⟨last, rfl, hchar⟩, hlast, hmark⟩
  · rw [hparts, List.dropLast_concat] at htail
    rw [hparts, List.getLast?_concat] at hlast
    refine ⟨before ++ [last], [], last, ?_, ?_, .inl rfl, hlast, ?_⟩
    · rw [hparts, List.append_nil]
    · intro cell hcell
      rcases List.mem_append.mp hcell with hcell | hcell
      · exact htail cell hcell
      · rw [List.mem_singleton.mp hcell]
        exact hchar
    · rw [hmark, hparts]

end Cells

namespace Terminal

/-! ## The row below -/

/-- `t'` is what comes of the page of `t` when its text goes on in the next row.  The row of the
cursor is left as `left`, and of the row `old` that the cursor enters `entered old` is made.  At the
bottom of the region that is an untouched one: the region has moved up, and its first row has become
history if it was the first one of the primary page. -/
inductive GoesOn (t t' : Terminal) (left : Row) (entered : Row → Row) (col : Nat) : Prop
  | below {above under : List Row} {r old : Row} :
      t.active.rows = above ++ r :: old :: under → above.length = t.cursor.row →
      t.cursor.row ≠ t.region.bottom →
      t'.active.rows = above ++ left :: entered old :: under →
      t'.active.scrollback = t.active.scrollback →
      t'.cursor = { t.cursor with row := t.cursor.row + 1, col := col } →
      GoesOn t t' left entered col
  | scrolled {above lines under : List Row} {r : Row} :
      t.active.rows = above ++ (lines ++ r :: under) → above.length = t.region.top →
      above.length + lines.length = t.cursor.row → t.cursor.row = t.region.bottom →
      t'.active.rows =
        above ++ ((lines ++ [left]).tail ++ entered (Row.new t.cols) :: under) →
      t'.active.scrollback.toList =
        (if t.usingAlternate = false ∧ t.region.top = 0 then
          (t.active.scrollback.toList ++ (lines ++ [left]).take 1).rtake t.active.scrollbackLimit
        else t.active.scrollback.toList) →
      t'.cursor = { t.cursor with col := col } →
      GoesOn t t' left entered col

variable {t down t' : Terminal} {left : Row}

/-- Above the bottom of the region the cursor goes down. -/
theorem index_of_ne_bottom (hne : t.cursor.row ≠ t.region.bottom)
    (hlt : t.cursor.row + 1 < t.rows) :
    t.index = t.modifyActive fun p => p.moveToRow (t.cursor.row + 1) := by
  unfold index
  dsimp only
  rw [if_neg hne, if_pos (by omega)]

/-- Scrolling by one row makes the first one history, or loses it. -/
theorem toList_scrollback_scrollUp_one {above lines under : List Row}
    (hfits : t.region.fits t.active.rows.length = true)
    (hsize : t.active.scrollback.size ≤ t.active.scrollbackLimit)
    (hrows : t.active.rows = above ++ lines ++ under) (habove : above.length = t.region.top)
    (hlines : lines.length = t.region.height) :
    (t.scrollUp 1).active.scrollback.toList =
      if t.usingAlternate = false ∧ t.region.top = 0 then
        (t.active.scrollback.toList ++ lines.take 1).rtake t.active.scrollbackLimit
      else t.active.scrollback.toList := by
  have hone : 1 ≤ t.region.height := Nat.le_add_left 1 _
  unfold scrollUp
  dsimp only
  rw [if_pos hfits, Nat.min_eq_left hone, active_modifyActive]
  change (Page.scrollUp _ _ _ _ _ 1).scrollback.toList = _
  by_cases hkeep : t.usingAlternate = false ∧ t.region.top = 0
  · obtain ⟨hshown, htop⟩ := id hkeep
    obtain rfl : above = [] := List.eq_nil_of_length_eq_zero (habove.trans htop)
    have hheight : t.region.height = t.region.bottom + 1 := by
      rw [Region.height, htop, Nat.sub_zero]
    rw [if_pos hkeep, hshown, htop]
    exact Page.toList_scrollback_scrollUp t.cols hrows (hlines.trans hheight)
      (hlines ▸ hone) hsize
  · have hlost : (!t.usingAlternate && t.region.top == 0) = false := by
      simpa using hkeep
    rw [if_neg hkeep, hlost, Page.scrollback_scrollUp_false]

/-- At its bottom the region moves up by a row, and an untouched one comes in below. -/
theorem index_at_bottom {above lines under : List Row} {r : Row}
    (hfits : t.region.fits t.active.rows.length = true)
    (hsize : t.active.scrollback.size ≤ t.active.scrollbackLimit)
    (hrows : t.active.rows = above ++ (lines ++ [r]) ++ under)
    (habove : above.length = t.region.top)
    (hlength : above.length + lines.length = t.cursor.row)
    (hbottom : t.cursor.row = t.region.bottom) :
    t.index.active.rows = (above ++ (lines ++ [r]).tail) ++ Row.new t.cols :: under ∧
      t.index.active.scrollback.toList =
        (if t.usingAlternate = false ∧ t.region.top = 0 then
          (t.active.scrollback.toList ++ (lines ++ [r]).take 1).rtake t.active.scrollbackLimit
        else t.active.scrollback.toList) ∧
      t.index.cursor = t.cursor := by
  have hindex : t.index = t.scrollUp 1 := if_pos hbottom
  have hheight : (lines ++ [r]).length = t.region.height := by
    rw [Region.height, List.length_append, List.length_singleton]
    omega
  have hraised := relined_scrollUp hfits hrows habove hheight 1
  rw [hindex]
  refine ⟨?_, toList_scrollback_scrollUp_one hfits hsize hrows habove hheight, hraised.cursor_eq⟩
  have hone : min 1 t.region.height = 1 := Nat.min_eq_left (Nat.le_add_left 1 _)
  rw [hraised.rows_eq, hone, Lines.raised, List.drop_one]
  simp

/-- A list cut at one place and around another. -/
theorem exists_cut {α : Type} (l : List α) {i j : Nat} (hij : i ≤ j) (hj : j < l.length) :
    ∃ front middle x back, l = front ++ (middle ++ x :: back) ∧ front.length = i ∧
      front.length + middle.length = j := by
  have hdrop : l.drop i = (l.drop i).take (j - i) ++ l[j] :: l.drop (j + 1) := by
    rw [List.getElem_cons_drop, ← Nat.add_sub_cancel' hij, ← List.drop_drop,
      Nat.add_sub_cancel_left, List.take_append_drop]
  refine ⟨l.take i, (l.drop i).take (j - i), l[j], l.drop (j + 1), ?_, ?_, ?_⟩
  · rw [← hdrop, List.take_append_drop]
  · exact List.length_take_of_le (by omega)
  · rw [List.length_take, List.length_take, List.length_drop]
    omega

/-- Onto the row below. -/
theorem exists_goesOn_below {limit : Nat} (hpage : t.active.WellFormed t.cols t.rows limit)
    (hinside : t.cursor.row ≠ t.region.bottom) (hroom : t.cursor.row + 1 < t.rows)
    (hdown : t.Retouched down) (hleft : down.active.rows[down.cursor.row]? = some left) :
    ∃ old, down.index.active.rows[down.index.cursor.row]? = some old ∧
      old.cells.length = t.cols ∧
      ∀ (t' : Terminal) (entered : Row → Row), down.index.Retouched t' →
        t'.active.rows[t'.cursor.row]? = some (entered old) →
          t.GoesOn t' left entered t'.cursor.col := by
  obtain ⟨above, middle, old, under, hrows, habove, hlength⟩ :=
    exists_cut t.active.rows (Nat.le_succ t.cursor.row) (hpage.length_rows ▸ hroom)
  obtain ⟨r, rfl⟩ : ∃ r, middle = [r] := List.length_eq_one_iff.mp (by omega)
  have hset : down.active.rows = (above ++ [left]) ++ old :: under := by
    rw [hdown.rows_eq_append hrows habove hleft, List.append_assoc]
    rfl
  have hindex : down.index = down.modifyActive fun p => p.moveToRow (t.cursor.row + 1) := by
    rw [← hdown.row_eq]
    refine index_of_ne_bottom ?_ ?_
    · rw [hdown.row_eq, hdown.frame, region_modifyActive]
      exact hinside
    · rw [hdown.row_eq, hdown.frame, rows_modifyActive]
      exact hroom
  have hbelow : down.index.active.rows = (above ++ [left]) ++ old :: under := by
    rw [hindex, active_modifyActive]
    exact hset
  have hplace : (above ++ [left]).length = down.index.cursor.row := by
    rw [hindex, cursor_modifyActive, List.length_append, List.length_singleton, habove]
    rfl
  refine ⟨old, ?_, ?_, fun t' entered hentered hrow => ?_⟩
  · rw [hbelow, ← hplace, List.getElem?_append_right (Nat.le_refl _), Nat.sub_self,
      List.getElem?_cons_zero]
  · exact hpage.length_cells old (by rw [hrows]; simp)
  · refine .below hrows habove hinside ?_ ?_ ?_
    · rw [hentered.rows_eq_append hbelow hplace hrow, List.append_assoc]
      rfl
    · rw [hentered.active.scrollback_eq, hindex, active_modifyActive]
      exact hdown.active.scrollback_eq
    · have hcursor : down.index.cursor = { down.cursor with row := t.cursor.row + 1 } := by
        rw [hindex, cursor_modifyActive]
        rfl
      refine hentered.cursor_eq.trans ?_
      rw [hcursor, hdown.cursor_eq]

/-- At the bottom of the region. -/
theorem exists_goesOn_scrolled {limit : Nat} (hpage : t.active.WellFormed t.cols t.rows limit)
    (hfits : t.region.fits t.rows = true) (hbottom : t.cursor.row = t.region.bottom)
    (hdown : t.Retouched down) (hleft : down.active.rows[down.cursor.row]? = some left) :
    ∃ old, down.index.active.rows[down.index.cursor.row]? = some old ∧
      old.cells.length = t.cols ∧
      ∀ (t' : Terminal) (entered : Row → Row), down.index.Retouched t' →
        t'.active.rows[t'.cursor.row]? = some (entered old) →
          t.GoesOn t' left entered t'.cursor.col := by
  have hlast : t.cursor.row < t.active.rows.length := hpage.length_rows ▸ hpage.cursor.row_lt
  have htop : t.region.top ≤ t.cursor.row := by
    simp only [Region.fits, Bool.and_eq_true, decide_eq_true_eq] at hfits
    omega
  obtain ⟨above, lines, r, under, hrows, habove, hlength⟩ :=
    exists_cut t.active.rows htop hlast
  -- The region as the row of the cursor has been left.
  have hset : down.active.rows = above ++ (lines ++ [left]) ++ under := by
    rw [← List.append_assoc] at hrows
    rw [hdown.rows_eq_append hrows (by rw [List.length_append, hlength]) hleft]
    simp
  have hregion : down.region = t.region := by rw [hdown.frame, region_modifyActive]
  have hcols : down.cols = t.cols := by rw [hdown.frame, cols_modifyActive]
  have hshown : down.usingAlternate = t.usingAlternate := by
    rw [hdown.frame, usingAlternate_modifyActive]
  have hback := hdown.active.scrollback_eq
  have hlimit := hdown.active.limit_eq
  have hdownFits : down.region.fits down.active.rows.length = true := by
    obtain ⟨edit, hedit⟩ := hdown.active.rows_eq
    rw [hregion, hedit, List.length_modify, hpage.length_rows]
    exact hfits
  have hsize : down.active.scrollback.size ≤ down.active.scrollbackLimit := by
    rw [hback, hlimit, hpage.limit_eq]
    exact hpage.size_history
  obtain ⟨hmoved, hhistory, hcursor⟩ := index_at_bottom hdownFits hsize hset
    (hregion ▸ habove) (by rw [hdown.row_eq, hlength]) (by rw [hdown.row_eq, hregion, hbottom])
  rw [hcols] at hmoved
  rw [hregion, hshown, hback, hlimit] at hhistory
  have hplace : (above ++ (lines ++ [left]).tail).length = down.index.cursor.row := by
    rw [hcursor, hdown.row_eq, List.length_append, List.length_tail, List.length_append,
      List.length_singleton, Nat.add_sub_cancel, hlength]
  refine ⟨Row.new t.cols, ?_, Row.length_new _, fun t' entered hentered hrow => ?_⟩
  · rw [hmoved, ← hplace, List.getElem?_append_right (Nat.le_refl _), Nat.sub_self,
      List.getElem?_cons_zero]
  · refine .scrolled hrows habove hlength hbottom ?_ ?_ ?_
    · rw [hentered.rows_eq_append hmoved hplace hrow, List.append_assoc]
    · rw [hentered.active.scrollback_eq, hhistory]
    · refine hentered.cursor_eq.trans ?_
      rw [hcursor, hdown.cursor_eq]

/-- **Going down a row** from one that has been left as `left`.  The row that is entered is there,
and whatever is made of it, text has gone on in the next row. -/
theorem exists_goesOn {limit : Nat} (hpage : t.active.WellFormed t.cols t.rows limit)
    (hfits : t.region.fits t.rows = true)
    (hplace : t.cursor.row = t.region.bottom ∨ t.cursor.row + 1 < t.rows)
    (hdown : t.Retouched down) (hleft : down.active.rows[down.cursor.row]? = some left) :
    ∃ old, down.index.active.rows[down.index.cursor.row]? = some old ∧
      old.cells.length = t.cols ∧
      ∀ (t' : Terminal) (entered : Row → Row), down.index.Retouched t' →
        t'.active.rows[t'.cursor.row]? = some (entered old) →
          t.GoesOn t' left entered t'.cursor.col := by
  by_cases hbottom : t.cursor.row = t.region.bottom
  · exact exists_goesOn_scrolled hpage hfits hbottom hdown hleft
  · exact exists_goesOn_below hpage hbottom (hplace.resolve_left hbottom) hdown hleft

/-! ## The character that is moved -/

/-- Cells are put over the first ones of the cursor's row. -/
theorem exists_placed {old : Row} (hold : t.active.rows[t.cursor.row]? = some old) (moved : Cells)
    (hlen : moved.length ≤ old.cells.length) :
    ∃ released, t.releaseCovered t.cursor.row 0 moved.length = .ok released ∧
      let placed := released.modifyActive fun p =>
        ((p.modifyRow t.cursor.row fun r =>
          { r with cells := moved.take r.cells.length ++ r.cells.drop moved.length }).markDirty
            t.cursor.row).moveToCol moved.length
      t.Retouched placed ∧
        placed.active.rows[placed.cursor.row]? =
          some { old with cells := moved ++ old.cells.remains moved.length t.blank } ∧
        placed.cursor.col = moved.length := by
  obtain ⟨released, hreleased⟩ : ∃ released, (t.modifyActive fun p =>
      p.modifyRow t.cursor.row fun r =>
        { r with cells := Cells.releaseCovered r.cells 0 moved.length t.blank }) = released :=
    ⟨_, rfl⟩
  have hok : t.releaseCovered t.cursor.row 0 moved.length = .ok released := by
    rw [← hreleased]
    exact if_pos (List.getElem?_eq_some_iff.mp hold).1
  have hrow : released.active.rows[released.cursor.row]? = some
      { old with cells := old.cells.take moved.length ++
        old.cells.remains moved.length t.blank } := by
    rw [← hreleased, getElem?_cursorRow_modifyActive hold (g := fun r =>
      { r with cells := Cells.releaseCovered r.cells 0 moved.length t.blank }) rfl rfl,
      Cells.releaseCovered_zero hlen]
  have hretouched := retouched_of_releaseCovered hok
  rw [← hretouched.row_eq] at hok ⊢
  refine ⟨released, hok, hretouched.trans (retouched_modifyActive (.write _ _ _ _)), ?_, ?_⟩
  · have htake : (old.cells.take moved.length).length = moved.length :=
      List.length_take_of_le hlen
    have hle : moved.length ≤
        (old.cells.take moved.length ++ old.cells.remains moved.length t.blank).length := by
      rw [List.length_append, htake]
      exact Nat.le_add_right _ _
    rw [getElem?_cursorRow_modifyActive hrow (g := fun r =>
      { r with cells := moved.take r.cells.length ++ r.cells.drop moved.length }) rfl rfl]
    dsimp only
    rw [List.take_of_length_le hle, List.drop_left' htake]
  · rw [cursor_modifyActive]
    rfl

/-- A mark is put behind the cells in front of the cursor. -/
theorem exists_attachHere_row {r : Row} (hr : t.active.rows[t.cursor.row]? = some r)
    {front back : Cells} {x : Cell} (hcells : r.cells = front ++ x :: back)
    (hcol : t.cursor.col = front.length) (c : Char) :
    ∃ t', t.attachHere c = .ok t' ∧ t.Retouched t' ∧
      t'.active.rows[t'.cursor.row]? =
        some { r with cells := front.mark c t.style ++ back } ∧
      t'.cursor.col = front.length + 1 := by
  have hlt : t.cursor.col < r.cells.length := by
    rw [hcells, hcol, List.length_append, List.length_cons]
    omega
  have hok := attachHere_eq hr hlt c
  refine ⟨_, hok, retouched_of_attachHere hok, ?_, ?_⟩
  · rw [getElem?_cursorRow_modifyActive hr (g := fun r' =>
      { r' with cells := Cells.attach r.cells t.cursor.col c t.style }) rfl rfl, hcells, hcol,
      Cells.attach_append]
  · rw [cursor_modifyActive, ← hcol]
    rfl

/-- A mark at the margin goes to the character that has been moved for it, if there is one. -/
theorem putChar_of_wrapLastCluster {moved : Option Terminal}
    (hmoved : t.wrapLastCluster = .ok moved) (hrow : t.cursor.row < t.active.rows.length)
    (hcol : t.cols ≤ t.cursor.col) (hwrap : t.has .autoWrap = true) {c : Char}
    (hc : Text.width? c = some 0) :
    t.putChar c = moved.elim (.ok t) fun wrapped => wrapped.attachHere c := by
  simp only [putChar, hc, true_or, if_true, attach, if_neg (Nat.not_le.mpr hrow), if_pos hcol,
    hwrap, hmoved]
  cases moved with
  | none => rfl
  | some wrapped => rfl

/-- The last character leaves the row of the cursor, and comes to stand at the start of the next. -/
theorem exists_wrapLastCluster_placed {r : Row} (hr : t.active.rows[t.cursor.row]? = some r)
    (hlen : r.cells.length = t.cols) {s : Nat} (hs : r.cells.LastFrom s) (hpos : s ≠ 0) :
    ∃ down, t.Retouched down ∧
      down.active.rows[down.cursor.row]? =
        some ⟨r.cells.take s ++ List.replicate (t.cols - s) t.blank, true⟩ ∧
      ∀ old, down.index.active.rows[down.index.cursor.row]? = some old →
        old.cells.length = t.cols →
        ∃ wrapped, t.wrapLastCluster = .ok (some wrapped) ∧ down.index.Retouched wrapped ∧
          wrapped.active.rows[wrapped.cursor.row]? =
            some { old with cells := r.cells.drop s ++ old.cells.remains (t.cols - s) t.blank } ∧
          wrapped.cursor.col = t.cols - s := by
  have hlt := hs.lt
  have hstart : lastClusterStart r.cells (t.cols - 1) = s :=
    hs.lastClusterStart_eq (by omega) (by omega)
  have hmoved : (r.cells.drop s).length = t.cols - s := by rw [List.length_drop, hlen]
  have hfill := Cells.fill_append (r.cells.take s) (r.cells.drop s) [] t.blank
  rw [List.append_nil, List.take_append_drop, List.append_nil, hmoved,
    List.length_take_of_le (by omega), Nat.add_sub_cancel' (by omega)] at hfill
  obtain ⟨down, hdown⟩ : ∃ down, (t.modifyActive fun p =>
      ((p.modifyRow t.cursor.row fun r => ⟨Cells.fill r.cells s t.cols t.blank, true⟩).markDirty
        t.cursor.row).moveToCol 0) = down := ⟨_, rfl⟩
  refine ⟨down, ?_, ?_, fun old hold holdLen => ?_⟩
  · rw [← hdown]
    exact retouched_modifyActive (.write _ _ _ _)
  · rw [← hdown, getElem?_cursorRow_modifyActive hr (g := fun r =>
      ⟨Cells.fill r.cells s t.cols t.blank, true⟩) rfl rfl, hfill]
  · have hblank : down.index.blank = t.blank := by
      rw [index_eq_modifyActive, blank_modifyActive, ← hdown, blank_modifyActive]
    obtain ⟨released, hrelease, hplaced, hrow, hcol⟩ :=
      exists_placed hold (r.cells.drop s) (by omega)
    rw [hblank] at hrow
    refine ⟨_, ?_, hplaced, hmoved ▸ hrow, hcol.trans hmoved⟩
    simp only [wrapLastCluster, hr, hlen, Nat.min_self, hstart, if_neg hpos, hdown]
    rw [← hlen, List.take_length, hrelease]
    rfl

/-- **At the right margin a character is moved whole.**  Let a wrap be pending, on a row from which
the cursor can go down, and let the last character of that row begin in slot `s`.  A mark that is
put to it moves it to the row that the cursor enters: its slots leave blanks behind, in a row that
is marked as going on in the next, and come to stand in the same order and with the same styles at
the start of the other.  The mark comes in once, behind the other scalars and before the wide tail,
and the cursor stands behind them all.  The rest of the row that is entered is what `remains` of it,
the other rows and the history are those of `GoesOn`, and all but the page in view is what it was.
If the character fills its row, nothing at all happens.

All that is asked for is a well-formed page, of whatever size, and a region that lies on it. -/
theorem moved_whole {limit : Nat} (hpage : t.active.WellFormed t.cols t.rows limit)
    (hfits : t.region.fits t.rows = true) (hwrap : t.has .autoWrap = true)
    (hcol : t.cursor.col = t.cols)
    (hplace : t.cursor.row = t.region.bottom ∨ t.cursor.row + 1 < t.rows)
    {r : Row} (hr : t.active.rows[t.cursor.row]? = some r) {s : Nat} (hs : r.cells.LastFrom s)
    {c : Char} (hc : Text.width? c = some 0) :
    (s = 0 → t.putChar c = .ok t) ∧
    (0 < s → ∃ body closing last t', r.cells.drop s = body ++ closing ∧
      (∀ cell ∈ body, cell.char ≠ wideTail) ∧
      (closing = [] ∨ ∃ tail, closing = [tail] ∧ tail.char = wideTail) ∧
      r.cells.getLast? = some last ∧ t.putChar c = .ok t' ∧
      (t' = t.modifyActive fun _ => t'.active) ∧
      t.GoesOn t' ⟨r.cells.take s ++ List.replicate (t.cols - s) t.blank, true⟩
        (fun old => { old with cells :=
          body ++ ⟨c, last.style⟩ :: closing ++ (old.cells.remains (t.cols - s) t.blank).tail })
        (t.cols - s + 1)) := by
  have hlen : r.cells.length = t.cols := hpage.length_cells r (List.mem_of_getElem? hr)
  have hrow : t.cursor.row < t.active.rows.length := (List.getElem?_eq_some_iff.mp hr).1
  have hattach {moved : Option Terminal} (hmoved : t.wrapLastCluster = .ok moved) :
      t.putChar c = moved.elim (.ok t) fun wrapped => wrapped.attachHere c :=
    putChar_of_wrapLastCluster hmoved hrow (Nat.le_of_eq hcol.symm) hwrap hc
  refine ⟨fun hzero => ?_, fun hpos => ?_⟩
  · have hstart : lastClusterStart r.cells (t.cols - 1) = 0 := by
      rw [hs.lastClusterStart_eq (by omega) (by have := hs.lt; omega), hzero]
    have hnone : t.wrapLastCluster = .ok none := by
      simp only [wrapLastCluster, hr, hlen, Nat.min_self, hstart]
      rfl
    exact hattach hnone
  · obtain ⟨down, hdown, hleft, hmove⟩ :=
      exists_wrapLastCluster_placed hr hlen hs (Nat.ne_of_gt hpos)
    obtain ⟨old, hold, holdLen, hgoes⟩ := exists_goesOn hpage hfits hplace hdown hleft
    obtain ⟨wrapped, hwrapped, hentered, hwrappedRow, hwrappedCol⟩ := hmove old hold holdLen
    -- The mark takes the first slot behind the character.
    obtain ⟨x, back, hback⟩ : ∃ x back, old.cells.remains (t.cols - s) t.blank = x :: back := by
      refine List.exists_cons_of_length_pos ?_
      have hlt := hs.lt
      rw [Cells.length_remains]
      omega
    rw [hback] at hwrappedRow
    obtain ⟨t', hok, hmarked, hmarkedRow, hmarkedCol⟩ :=
      exists_attachHere_row hwrappedRow rfl (by rw [hwrappedCol, List.length_drop, hlen]) c
    obtain ⟨body, closing, last, hparts, hbody, hclosing, hlast, hmark⟩ :=
      hs.exists_mark_eq c wrapped.style
    have hretouched := hentered.trans hmarked
    refine ⟨body, closing, last, t', hparts, hbody, hclosing, hlast, ?_, ?_, ?_⟩
    · exact (hattach hwrapped).trans hok
    · have hframe := hretouched.frame
      rw [index_eq_modifyActive, hdown.frame, modifyActive_modifyActive,
        modifyActive_modifyActive] at hframe
      exact hframe
    · rw [hmark] at hmarkedRow
      rw [List.length_drop, hlen] at hmarkedCol
      rw [← hmarkedCol]
      refine hgoes t' _ hretouched ?_
      rw [hmarkedRow, hback, List.tail_cons]

/-- Three rows of which the first two scroll, with a full history and a wrap pending on one of them.
The second row ends with a wide character in bold. -/
def atMargin (row : Nat) : Terminal :=
  { Terminal.new 4 3 1 with
    primary :=
      { Page.new 4 3 1 with
        rows := [⟨[⟨'a', .empty⟩, ⟨'b', .empty⟩, ⟨'c', .empty⟩, ⟨'d', .empty⟩], false⟩,
          ⟨[⟨'x', .empty⟩, ⟨'\u0302', .empty⟩, ⟨'\u4E2D', { attributes := .bold }⟩,
            ⟨wideTail, { attributes := .bold }⟩], false⟩, Row.new 4]
        scrollback := #[Row.new 4]
        cursor := { row := row, col := 4 } }
    style := { background := some (.indexed 4), attributes := .italic }
    region := ⟨0, 1⟩ }

/-- The example is a well-formed page. -/
theorem wellFormed_atMargin : (atMargin 1).active.WellFormed 4 3 1 :=
  { (Page.WellFormed.new (by decide) : (Page.new 4 3 1).WellFormed 4 3 1) with
    length_rows := rfl
    length_cells := by decide
    length_history := by decide
    cursor := ⟨by decide, by decide, by simp [atMargin, active, Terminal.new]⟩
    size_history := by decide }

/-- The wide character moves to an untouched row, and takes the mark in front of its tail; the first
row of the screen becomes history.  From the row above, the last letter moves onto another one, and
the mark of that one goes. -/
theorem moved_whole_atMargin :
    (atMargin 1).has .autoWrap = true ∧ (atMargin 1).cursor.col = (atMargin 1).cols ∧
      (atMargin 1).cursor.row = (atMargin 1).region.bottom ∧ Text.width? '\u0301' = some 0 ∧
      ∃ entered t', (atMargin 1).putChar '\u0301' = .ok t' ∧
        (atMargin 1).GoesOn t'
          ⟨[⟨'x', .empty⟩, ⟨'\u0302', .empty⟩, (atMargin 1).blank, (atMargin 1).blank], true⟩
          entered 3 ∧
        t'.active.rows =
          [⟨[⟨'x', .empty⟩, ⟨'\u0302', .empty⟩, (atMargin 1).blank, (atMargin 1).blank], true⟩,
            ⟨[⟨'\u4E2D', { attributes := .bold }⟩, ⟨'\u0301', { attributes := .bold }⟩,
              ⟨wideTail, { attributes := .bold }⟩, {}], false⟩, Row.new 4] ∧
        t'.active.scrollback.map (fun r => r.cells.slots) = #[['a', 'b', 'c', 'd']] ∧
        ((atMargin 0).putChar '\u0301').toOption.map grid =
          some [['a', 'b', 'c', ' '], ['d', '\u0301', '\u4E2D', wideTail],
            [' ', ' ', ' ', ' ']] := by
  have hwrap : (atMargin 1).has .autoWrap = true := by decide
  have hmark : Text.width? '\u0301' = some 0 := by decide +kernel
  have hrow : (atMargin 1).active.rows[(atMargin 1).cursor.row]? =
      some ⟨[⟨'x', .empty⟩, ⟨'\u0302', .empty⟩, ⟨'\u4E2D', { attributes := .bold }⟩,
        ⟨wideTail, { attributes := .bold }⟩], false⟩ := rfl
  obtain ⟨body, closing, last, t', -, -, -, -, hok, -, hgoes⟩ :=
    (moved_whole wellFormed_atMargin (by decide) hwrap rfl (.inl rfl) hrow (s := 2)
      ⟨by decide, .inr (by decide +kernel), by decide +kernel, by decide⟩ hmark).2 (by decide)
  have hmoved : ((atMargin 1).putChar '\u0301').toOption.map (fun t =>
      decide (t.active.rows =
          [⟨[⟨'x', .empty⟩, ⟨'\u0302', .empty⟩, (atMargin 1).blank, (atMargin 1).blank], true⟩,
            ⟨[⟨'\u4E2D', { attributes := .bold }⟩, ⟨'\u0301', { attributes := .bold }⟩,
              ⟨wideTail, { attributes := .bold }⟩, {}], false⟩, Row.new 4] ∧
        t.active.scrollback.map (fun r => r.cells.slots) = #[['a', 'b', 'c', 'd']])) =
      some true := by decide +kernel
  rw [hok] at hmoved
  obtain ⟨hrows, hhistory⟩ := of_decide_eq_true (Option.some.inj hmoved)
  exact ⟨hwrap, rfl, rfl, hmark, _, t', hok, hgoes, hrows, hhistory, by decide +kernel⟩

end Terminal

end VideoTerminal
