import VideoTerminal.Proofs.Screen.Cut
import VideoTerminal.Proofs.Terminal.Lines

/-!
# Editing and erasing, seen from the cursor

The cursor cuts the screen (`CutScreen.Cuts`), also where a wrap is pending and nothing is left of
its row.  Every edit of the row and every erasure is what `CutScreen` says of the parts, and leaves
the cursor, the style and all else of the terminal (`Terminal.edited_cut`).
-/

namespace VideoTerminal

/-- The screen that `t` shows, cut at its cursor. -/
structure CutScreen.Cuts (s : CutScreen) (t : Terminal) : Prop where
  rows_eq : t.active.rows = s.rows
  row_eq : s.above.length = t.cursor.row
  col_eq : s.left.length = t.cursor.col

namespace Terminal

/-- `t'` is `t` with other rows on the page that is shown, and with the same history. -/
structure Edited (t t' : Terminal) (rows : List Row) : Prop extends t.Relined t' rows where
  scrollback_eq : t'.active.scrollback = t.active.scrollback

variable {t : Terminal} {shown : Nat} {s : CutScreen}

/-- The cursor of a well-formed page stands on one of its rows, or right behind it. -/
theorem exists_cuts (h : t.active.WellFormed t.cols t.rows shown) : ∃ s : CutScreen, s.Cuts t := by
  obtain ⟨r, hr, hcells⟩ := h.exists_cursorRow
  obtain ⟨hrow, hget⟩ := List.getElem?_eq_some_iff.mp hr
  refine ⟨{
    above := t.active.rows.take t.active.cursor.row
    left := r.cells.take t.active.cursor.col
    right := r.cells.drop t.active.cursor.col
    wrapped := r.wrapped
    below := t.active.rows.drop (t.active.cursor.row + 1) }, ?_, ?_, ?_⟩
  · rw [CutScreen.rows]
    dsimp only
    rw [List.take_append_drop, ← hget, List.getElem_cons_drop, List.take_append_drop]
  · exact List.length_take_of_le (Nat.le_of_lt hrow)
  · exact List.length_take_of_le (hcells ▸ h.cursor.col_le)

section Cut

variable (hs : s.Cuts t)
include hs

/-- The parts are those of a screen of the size of `t`. -/
theorem sized_of_cuts (h : t.active.WellFormed t.cols t.rows shown) : s.Sized t.cols t.rows := by
  have hrows := h.length_rows
  have hcells := h.length_cells
  rw [hs.rows_eq] at hrows hcells
  refine ⟨?_, ?_, ?_, ?_⟩
  · rw [← hrows, CutScreen.rows, List.length_append, List.length_cons]
    omega
  · rw [← hcells ⟨s.left ++ s.right, s.wrapped⟩ (by simp [CutScreen.rows]), List.length_append]
  · exact fun r hr => hcells r (List.mem_append_left _ hr)
  · exact fun r hr => hcells r (List.mem_append_right _ (List.mem_cons_of_mem _ hr))

/-- The row of the cursor is what stands on both sides of it. -/
theorem getElem?_cursorRow :
    t.active.rows[t.cursor.row]? = some ⟨s.left ++ s.right, s.wrapped⟩ := by
  rw [hs.rows_eq, ← hs.row_eq, CutScreen.rows, List.getElem?_append_right (Nat.le_refl _),
    Nat.sub_self, List.getElem?_cons_zero]

/-- An edit of the cells from the cursor on.  There are none if a wrap is pending. -/
theorem edited_editCursorRow {edit : Cells → Nat → Cells} {right : Cells}
    (hedit : edit (s.left ++ s.right) s.left.length = s.left ++ right)
    (hlength : right.length = s.right.length) :
    t.Edited (t.editCursorRow edit) { s with right := right }.rows where
  rows_eq := by
    have hcursor : t.active.rows[t.active.cursor.row]? = some ⟨s.left ++ s.right, s.wrapped⟩ :=
      getElem?_cursorRow hs
    have hcol : t.active.cursor.col = s.left.length := hs.col_eq.symm
    unfold editCursorRow
    rw [active_modifyActive, hcursor]
    dsimp only
    split
    · refine (Page.rows_editRow_append hs.rows_eq hs.row_eq _).trans ?_
      dsimp only
      rw [hcol, hedit, CutScreen.rows]
    · next hbehind =>
      have hnil : s.right.length = 0 := by
        rw [hcol, List.length_append] at hbehind
        omega
      rw [hs.rows_eq, List.eq_nil_of_length_eq_zero (hlength.trans hnil),
        ← List.eq_nil_of_length_eq_zero hnil]
  cursor_eq := t.cursor_editCursorRow edit
  frame := (t.retouched_editCursorRow edit).frame
  scrollback_eq := (t.retouched_editCursorRow edit).active.scrollback_eq

/-- Inserting blanks moves what stands on the right. -/
theorem edited_insertChars (n : Nat) :
    t.Edited (t.insertChars n) (s.insertBlanks (min n s.right.length) t.blank).rows := by
  refine edited_editCursorRow hs (Cells.insertBlanks_append _ _ _ _) ?_
  rw [List.length_append, List.length_replicate, List.length_take]
  omega

/-- Deleting cells takes them from what stands on the right. -/
theorem edited_deleteChars (n : Nat) :
    t.Edited (t.deleteChars n) (s.deleteCells (min n s.right.length) t.blank).rows := by
  refine edited_editCursorRow hs (Cells.deleteCells_append _ _ _ _) ?_
  rw [List.length_append, List.length_replicate, List.length_drop]
  omega

/-- Erasing cells blanks the first ones on the right. -/
theorem edited_eraseChars (n : Nat) :
    t.Edited (t.eraseChars n) (s.eraseCells (min n s.right.length) t.blank).rows := by
  refine edited_editCursorRow hs (Cells.eraseCells_append _ _ _ _) ?_
  rw [List.length_append, List.length_replicate, List.length_drop]
  omega

/-- Erasing in the row blanks one side of the cursor, or both. -/
theorem relined_eraseInLine (part : Nat) :
    t.Relined (t.eraseInLine part) (s.eraseInLine t.blank part).rows := by
  have hcol : t.active.cursor.col = s.left.length := hs.col_eq.symm
  unfold eraseInLine
  match part with
  | 0 =>
    refine relined_modifyActive ?_ (Page.cursor_editRow _ _ _)
    refine (Page.rows_editRow_append hs.rows_eq hs.row_eq _).trans ?_
    dsimp only
    rw [hcol, Cells.fill_from]
    rfl
  | 1 =>
    refine relined_modifyActive ?_ (Page.cursor_editRow _ _ _)
    refine (Page.rows_editRow_append hs.rows_eq hs.row_eq _).trans ?_
    dsimp only
    rw [hcol, Cells.fill_upTo]
    rfl
  | 2 =>
    refine relined_modifyActive ?_ (Page.cursor_editRow _ _ _)
    refine (Page.rows_editRow_append hs.rows_eq hs.row_eq _).trans ?_
    dsimp only
    rw [Cells.fill_all, List.length_append, ← List.replicate_append_replicate]
    rfl
  | part + 3 => exact relined_modifyActive hs.rows_eq rfl

/-- All rows are cleared, that of the cursor among them. -/
theorem rows_clearRows_all (hsize : s.Sized t.cols t.rows) :
    (t.active.clearRows 0 t.rows t.blank).rows =
      (s.eraseInDisplay t.cols t.blank 2).rows := by
  have hlength : s.rows.length = t.rows := by
    rw [← hsize.length_rows, CutScreen.rows, List.length_append, List.length_cons]
    omega
  have hrows : t.active.rows = [] ++ s.rows ++ [] := by
    rw [hs.rows_eq, List.nil_append, List.append_nil]
  refine (Page.rows_clearRows_append hrows rfl ?_ _).trans ?_
  · rw [hlength, List.length_nil, Nat.zero_add]
  · rw [List.nil_append, List.append_nil, CutScreen.rows, List.map_append, List.map_cons,
      CutScreen.map_clear_eq _ _ hsize.length_above, CutScreen.map_clear_eq _ _ hsize.length_below,
      Row.clear, List.map_const', List.length_append, ← List.replicate_append_replicate]
    rfl

/-- Erasing on the screen blanks one side of the cursor and the rows there, or all of it. -/
theorem relined_eraseInDisplay (hsize : s.Sized t.cols t.rows) (part : Nat) :
    t.Relined (t.eraseInDisplay part) (s.eraseInDisplay t.cols t.blank part).rows := by
  unfold eraseInDisplay
  match part with
  | 0 =>
    have hline := relined_eraseInLine hs 0
    have hrow : (t.eraseInLine 0).active.cursor.row = s.above.length :=
      (congrArg Cursor.row hline.cursor_eq).trans hs.row_eq.symm
    refine hline.trans (relined_modifyActive ?_ rfl)
    have hrows : (t.eraseInLine 0).active.rows =
        s.above ++ [⟨s.left ++ List.replicate s.right.length t.blank, false⟩] ++ s.below ++ [] := by
      rw [hline.rows_eq, List.append_nil, List.append_assoc]
      rfl
    refine (Page.rows_clearRows_append hrows ?_ ?_ _).trans ?_
    · rw [hrow, List.length_append, List.length_singleton]
    · rw [List.length_append, List.length_singleton, hsize.length_rows]
    · rw [CutScreen.map_clear_eq _ _ hsize.length_below, List.append_nil, List.append_assoc]
      rfl
  | 1 =>
    have hline := relined_eraseInLine hs 1
    have hrow : (t.eraseInLine 1).active.cursor.row = s.above.length :=
      (congrArg Cursor.row hline.cursor_eq).trans hs.row_eq.symm
    refine hline.trans (relined_modifyActive ?_ rfl)
    have hrows : (t.eraseInLine 1).active.rows =
        [] ++ s.above ++ ⟨_, s.wrapped⟩ :: s.below := hline.rows_eq
    refine (Page.rows_clearRows_append hrows rfl ?_ _).trans ?_
    · rw [hrow, List.length_nil, Nat.zero_add]
    · rw [CutScreen.map_clear_eq _ _ hsize.length_above, List.nil_append]
      rfl
  | 2 => exact relined_modifyActive (rows_clearRows_all hs hsize) rfl
  | 3 => exact relined_modifyActive (rows_clearRows_all hs hsize) rfl
  | part + 4 => exact relined_self hs.rows_eq

/-- Erasing twice. -/
theorem rows_eraseInDisplay_twice (hsize : s.Sized t.cols t.rows) (part part' : Nat) :
    ((t.eraseInDisplay part).eraseInDisplay part').active.rows =
      ((s.eraseInDisplay t.cols t.blank part).eraseInDisplay t.cols t.blank part').rows := by
  have hfirst := relined_eraseInDisplay hs hsize part
  obtain ⟨hsized, habove, hleft⟩ := hsize.eraseInDisplay t.blank part
  have hcuts : (s.eraseInDisplay t.cols t.blank part).Cuts (t.eraseInDisplay part) := by
    refine ⟨hfirst.rows_eq, ?_, ?_⟩
    · rw [habove, hs.row_eq, hfirst.cursor_eq]
    · rw [hleft, hs.col_eq, hfirst.cursor_eq]
  have hrows : (t.eraseInDisplay part).rows = t.rows := by
    rw [hfirst.frame, rows_modifyActive]
  have hblank : (t.eraseInDisplay part).blank = t.blank := by
    rw [hfirst.frame, blank_modifyActive]
  have hsecond := relined_eraseInDisplay hcuts (by rw [hfirst.cols_eq, hrows]; exact hsized) part'
  rw [hsecond.rows_eq, hfirst.cols_eq, hblank]

end Cut

/-- Behind the last column there is nothing to edit. -/
theorem editCursorRow_eq_self (h : t.active.WellFormed t.cols t.rows shown)
    (hcol : t.cursor.col = t.cols) (edit : Cells → Nat → Cells) : t.editCursorRow edit = t := by
  obtain ⟨r, hr, hcells⟩ := h.exists_cursorRow
  have hbehind : ¬ t.active.cursor.col < r.cells.length := by
    rw [hcells]
    exact Nat.not_lt.mpr (Nat.le_of_eq hcol.symm)
  refine modifyActive_eq_self ?_
  rw [hr]
  dsimp only
  rw [if_neg hbehind]

/-- Erasing leaves the history, unless it is asked to erase it. -/
theorem scrollback_eraseInDisplay {part : Nat} (hpart : part ≠ 3) :
    (t.eraseInDisplay part).active.scrollback = t.active.scrollback := by
  unfold eraseInDisplay
  split
  · rw [active_modifyActive]
    exact (t.retouched_eraseInLine 0).active.scrollback_eq
  · rw [active_modifyActive]
    exact (t.retouched_eraseInLine 1).active.scrollback_eq
  · rw [active_modifyActive]
    rfl
  · exact absurd rfl hpart
  · rfl

/-- **Edits and erasures, seen from the cursor.**  With the screen cut there, and at most as many
slots as are left of the row, `n` slots are opened, taken out or blanked; none are where a wrap is
pending.  Erasing blanks what it is asked to.  Numbers without a meaning do nothing, and the cursor,
the style and all else stay, among them the history unless it is to be erased.  Erasing up to the
cursor and from the cursor on is erasing everything. -/
theorem edited_cut (h : t.active.WellFormed t.cols t.rows shown) :
    (∃ s : CutScreen, s.Cuts t) ∧ ∀ s : CutScreen, s.Cuts t →
      let blank : Cell := ⟨' ', { t.style with attributes := .none }⟩
      (∀ n, let k := min n (t.cols - t.cursor.col)
        t.Edited (t.insertChars n) (s.insertBlanks k blank).rows ∧
        t.Edited (t.deleteChars n) (s.deleteCells k blank).rows ∧
        t.Edited (t.eraseChars n) (s.eraseCells k blank).rows ∧
        (t.cursor.col = t.cols →
          t.insertChars n = t ∧ t.deleteChars n = t ∧ t.eraseChars n = t)) ∧
      (∀ part, t.Edited (t.eraseInLine part) (s.eraseInLine blank part).rows ∧
        t.Relined (t.eraseInDisplay part) (s.eraseInDisplay t.cols blank part).rows ∧
        (part ≠ 3 → (t.eraseInDisplay part).active.scrollback = t.active.scrollback) ∧
        (3 ≤ part → t.eraseInLine part = t) ∧ (4 ≤ part → t.eraseInDisplay part = t)) ∧
      ((t.eraseInDisplay 0).eraseInDisplay 1).active.rows = (t.eraseInDisplay 2).active.rows ∧
      ((t.eraseInDisplay 1).eraseInDisplay 0).active.rows = (t.eraseInDisplay 2).active.rows := by
  refine ⟨exists_cuts h, fun s hs => ?_⟩
  have hsize := sized_of_cuts hs h
  have hright : s.right.length = t.cols - t.cursor.col := by
    rw [← hs.col_eq, ← hsize.length_cells]
    omega
  obtain ⟨hboth, hboth'⟩ := s.eraseInDisplay_both t.cols t.blank
  refine ⟨fun n => ?_, fun part => ?_, ?_, ?_⟩
  · rw [← hright]
    refine ⟨edited_insertChars hs n, edited_deleteChars hs n, edited_eraseChars hs n,
      fun hcol => ?_⟩
    have hself := editCursorRow_eq_self h hcol
    exact ⟨hself _, hself _, hself _⟩
  · have hline : t.Edited (t.eraseInLine part) (s.eraseInLine t.blank part).rows :=
      { relined_eraseInLine hs part with
        scrollback_eq := (t.retouched_eraseInLine part).active.scrollback_eq }
    refine ⟨hline, relined_eraseInDisplay hs hsize part, scrollback_eraseInDisplay,
      fun hpart => ?_, fun hpart => ?_⟩
    · obtain ⟨part, rfl⟩ := Nat.exists_eq_add_of_le' hpart
      exact modifyActive_eq_self rfl
    · obtain ⟨part, rfl⟩ := Nat.exists_eq_add_of_le' hpart
      rfl
  · rw [rows_eraseInDisplay_twice hs hsize, hboth, (relined_eraseInDisplay hs hsize 2).rows_eq]
  · rw [rows_eraseInDisplay_twice hs hsize, hboth', (relined_eraseInDisplay hs hsize 2).rows_eq]

/-- Two rows of three cells, of which the first goes on in the second, in red and bold, with the
cursor on the middle cell of the first. -/
def underRed : Terminal :=
  { Terminal.new 3 2 0 with
    primary :=
      { Page.new 3 2 0 with
        rows := [⟨[⟨'a', .empty⟩, ⟨'b', .empty⟩, ⟨'c', .empty⟩], true⟩,
          ⟨[⟨'d', .empty⟩, ⟨'e', .empty⟩, ⟨'f', .empty⟩], false⟩]
        cursor := { col := 1 } }
    style := { foreground := some (.indexed 1), attributes := .bold } }

/-- The example is a well-formed page. -/
theorem wellFormed_underRed : underRed.active.WellFormed 3 2 0 :=
  { Page.WellFormed.new (by decide : 0 < 2) with
    length_rows := rfl
    length_cells := by decide
    cursor := ⟨by decide, by decide, by simp [underRed, active, Terminal.new]⟩ }

/-- Two slots are opened in the place of two cells, red but not bold, and the two halves of the
screen are the whole of it. -/
theorem edited_cut_underRed :
    underRed.active.WellFormed underRed.cols underRed.rows 0 ∧
      (underRed.insertChars 5).active.rows =
        [⟨[⟨'a', .empty⟩, ⟨' ', { foreground := some (.indexed 1) }⟩,
            ⟨' ', { foreground := some (.indexed 1) }⟩], true⟩,
          ⟨[⟨'d', .empty⟩, ⟨'e', .empty⟩, ⟨'f', .empty⟩], false⟩] ∧
      ((underRed.eraseInDisplay 1).eraseInDisplay 0).active.rows =
        (underRed.eraseInDisplay 2).active.rows := by
  have hcut := (edited_cut wellFormed_underRed).2
    ⟨[], [⟨'a', .empty⟩], [⟨'b', .empty⟩, ⟨'c', .empty⟩], true,
      [⟨[⟨'d', .empty⟩, ⟨'e', .empty⟩, ⟨'f', .empty⟩], false⟩]⟩ ⟨rfl, rfl, rfl⟩
  exact ⟨wellFormed_underRed, (hcut.1 5).1.rows_eq, hcut.2.2.2⟩

end Terminal

end VideoTerminal
