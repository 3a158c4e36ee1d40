import VideoTerminal.Proofs.Control.Fields
import VideoTerminal.Proofs.Line.Columns
import VideoTerminal.Proofs.Terminal.Confined

/-!
# Where the cursor is said to be

`CSI 6 n` asks for the place of the cursor, and `CSI r ; c H` sends it to a place.  A program that
asks and later sends the cursor back finds it in its row, under origin mode as well.  In its column
it does so only if slots and columns agree there: what is reported is the column at which the cursor
is seen, and what is set is the slot of that number (`Reachable.cursor_returns_iff`).

They agree if before the cursor there are as many slots without a column as wide characters begin
(`Terminal.Aligned`).  A mark before the cursor, or a cursor within a wide character, makes them
differ.
-/

namespace VideoTerminal.Terminal

/-- Before the cursor as many slots take no column as wide characters begin there, so that it is
seen at its slot.  In the last column it may as well be seen behind. -/
def Aligned (t : Terminal) : Prop :=
  match t.active.rows[t.cursor.row]? with
  | some row =>
    let slots := row.cells.line.structuralBefore t.cursor.col
    let wide := row.cells.line.wideBefore t.cols t.cursor.col
    slots = wide ∨ (t.cursor.col + 1 = t.cols ∧ slots ≤ wide)
  | none => True

instance (t : Terminal) : Decidable t.Aligned := by
  unfold Aligned
  split <;> infer_instance

/-- The cursor is seen where its row says. -/
theorem visualCursorCol_of_row {t : Terminal} {row : Row}
    (hrow : t.active.rows[t.cursor.row]? = some row) :
    t.visualCursorCol = row.cells.line.visualColumn t.cursor.col t.cols := by
  unfold visualCursorCol
  rw [hrow, Cells.line_eq_ofArray]

/-- The cursor is seen at its slot, or behind the last column. -/
theorem aligned_iff {t : Terminal} (hcol : t.cursor.col < t.cols) :
    t.Aligned ↔ min t.visualCursorCol (t.cols - 1) = t.cursor.col := by
  unfold Aligned
  cases hrow : t.active.rows[t.cursor.row]? with
  | none =>
      have hsame : t.visualCursorCol = t.cursor.col := by
        unfold visualCursorCol
        rw [hrow]
      refine iff_of_true trivial ?_
      omega
  | some row =>
      have hcount := row.cells.line.columnsBefore_add_structuralBefore t.cols t.cursor.col
      rw [visualCursorCol_of_row hrow, Line.visualColumn, Nat.min_eq_left (Nat.le_of_lt hcol)]
      dsimp only
      omega

/-! ## The report and the way back -/

/-- What is reported are coordinates, counted from one. -/
theorem of_cursorReport_eq_ok {t : Terminal} {r c : Nat}
    (h : t.cursorReport = .ok (.cursorPosition r c)) :
    r = t.cursor.row - (if t.has .originMode then t.region.top else 0) + 1 ∧ r ≤ maxCoordinate ∧
      c = t.visualCursorCol + 1 ∧ c ≤ maxCoordinate := by
  obtain ⟨row, hrow, hrest⟩ := exists_of_bind_eq_ok h
  obtain ⟨col, hcol, hend⟩ := exists_of_bind_eq_ok hrest
  obtain ⟨rfl, rfl⟩ := Reply.cursorPosition.inj (Except.ok.inj hend)
  obtain ⟨hrowLe, hrowEq⟩ := coordinate_eq_ok_iff.mp hrow
  obtain ⟨hcolLe, hcolEq⟩ := coordinate_eq_ok_iff.mp hcol
  exact ⟨hrowEq.symm, hrowEq ▸ hrowLe, hcolEq.symm, hcolEq ▸ hcolLe⟩

/-- The cursor is placed in a row of the region, or of the screen. -/
theorem row_cursorPosition (t : Terminal) (row col : Nat) :
    (t.cursorPosition row col).cursor.row =
      min (t.addressable.top + (row - 1)) t.addressable.bottom := by
  simp [cursorPosition, cursorColumn, cursorRow, Page.moveToCol, Page.moveToRow]

/-- The cursor is placed in a column of the screen. -/
theorem col_cursorPosition (t : Terminal) (row col : Nat) :
    (t.cursorPosition row col).cursor.col = min (col - 1) (t.cols - 1) := by
  simp [cursorPosition, cursorColumn, cursorRow, Page.moveToCol]

/-- Rows are reported as they are addressed, from the top of the region under origin mode. -/
theorem Seated.row_returns {t : Terminal} (h : t.Seated)
    (horigin : t.has .originMode = true → t.InRegion) (col : Nat) :
    (t.cursorPosition (t.cursor.row - (if t.has .originMode then t.region.top else 0) + 1)
      col).cursor.row = t.cursor.row := by
  have hshown := h.shown
  rw [row_cursorPosition]
  unfold addressable
  cases ho : t.has .originMode with
  | false =>
      simp only [Bool.false_eq_true, if_false, fullRegion]
      omega
  | true =>
      obtain ⟨htop, hbottom⟩ := horigin ho
      simp only [if_true]
      omega

/-- `CSI 6 n` as it is written. -/
def askCursor : List Char := Sequence.text ⟨[], [6], 'n'⟩

/-- `CSI r ; c H` as it is written. -/
def sendCursor (r c : Nat) : List Char := Sequence.text ⟨[], [r, c], 'H'⟩

/-- Asking changes nothing. -/
theorem of_feedText_askCursor {t : Terminal} {p : Parser} (hp : p.state = .ground)
    {i : Interpreter} {r c : Nat}
    (h : (Interpreter.mk p t).feedText askCursor = .ok (i, [.cursorPosition r c])) :
    i.terminal = t ∧ i.parser.state = .ground ∧ t.cursorReport = .ok (.cursorPosition r c) := by
  have hwritable : Sequence.Writable ⟨[], [6], 'n'⟩ :=
    ⟨List.all_eq_true.mp (by decide), by decide, by decide, by decide⟩
  have hfeed : (Interpreter.mk p t).feedText askCursor =
      (t.performAll [.reportCursor]).map fun out =>
        (⟨{ p with state := .ground, params := [6], marks := [], number := none }, out.1⟩, out.2) :=
    Interpreter.feedText_sequence hp hwritable
  rw [h, performAll, perform_reportCursor] at hfeed
  cases hreport : t.cursorReport with
  | error fault =>
      rw [hreport] at hfeed
      cases hfeed
  | ok reply =>
      rw [hreport] at hfeed
      obtain ⟨rfl, hreplies⟩ := Prod.mk.inj (Except.ok.inj hfeed)
      obtain rfl := (List.cons.inj hreplies).1
      exact ⟨rfl, rfl, rfl⟩

/-- The sequence that sends the cursor back is read as it is meant. -/
theorem exists_feedText_sendCursor {i : Interpreter} (hp : i.parser.state = .ground) {r c : Nat}
    (hr : r ≤ maxCoordinate) (hc : c ≤ maxCoordinate) :
    ∃ q, i.feedText (sendCursor r c) = .ok (⟨q, i.terminal.cursorPosition r c⟩, []) := by
  refine ⟨_, Interpreter.feedText_sequence hp ⟨?_, ?_, ?_, ?_⟩⟩
  · simp
  · simpa using ⟨hr, hc⟩
  · exact Nat.le_of_ble_eq_true rfl
  · rfl

/-- **Sending the cursor to where it is said to be.**  It comes back to its row, and to its column
exactly if slots and columns agree before it. -/
theorem Reachable.cursor_returns_iff {t : Terminal} (h : t.Reachable) (hcol : t.cursor.col < t.cols)
    (horigin : t.has .originMode = true → t.InRegion) {p : Parser} (hp : p.state = .ground)
    {i : Interpreter} {r c : Nat}
    (hreport : (Interpreter.mk p t).feedText askCursor = .ok (i, [.cursorPosition r c])) :
    ∃ j, i.feedText (sendCursor r c) = .ok (j, []) ∧
      j.terminal.cursor.row = t.cursor.row ∧
      (j.terminal.cursor.col = t.cursor.col ↔ t.Aligned) := by
  obtain ⟨hterminal, hground, hok⟩ := of_feedText_askCursor hp hreport
  obtain ⟨hr, hrLe, hc, hcLe⟩ := of_cursorReport_eq_ok hok
  obtain ⟨q, hsend⟩ := exists_feedText_sendCursor hground hrLe hcLe
  rw [hterminal] at hsend
  refine ⟨_, hsend, ?_, ?_⟩
  · rw [hr]
    exact h.seated.row_returns horigin c
  · rw [aligned_iff hcol, hc]
    exact Eq.congr_left (t.col_cursorPosition r (t.visualCursorCol + 1))

/-- A text that has been fed, told by its replies. -/
theorem exists_of_replies_eq {fed : Except Fault (Interpreter × List Reply)} {replies : List Reply}
    (h : fed.toOption.map Prod.snd = some replies) : ∃ i, fed = .ok (i, replies) := by
  cases fed with
  | error fault => cases h
  | ok out => exact ⟨out.1, congrArg Except.ok (Prod.ext rfl (Option.some.inj h))⟩

/-- Rows are counted from the top of a region, and a letter and a wide character are printed. -/
def wideInRegion : List Operation :=
  [.perform (.setScrollRegion 2 (some 3)), .setMode .originMode true,
    .perform (.cursorPosition 2 1), .putText ['a', '\u4E2D']]

/-- Behind the wide character the cursor comes back. -/
theorem cursor_returns_iff_wide :
    ∃ (t : Terminal) (i j : Interpreter), t.Reachable ∧ t.cursor.col < t.cols ∧
      t.has .originMode = true ∧ t.InRegion ∧ Parser.state {} = .ground ∧
      (Interpreter.mk {} t).feedText askCursor = .ok (i, [.cursorPosition 2 4]) ∧
      i.feedText (sendCursor 2 4) = .ok (j, []) ∧ j.terminal.cursor.row = t.cursor.row ∧
      (j.terminal.cursor.col = t.cursor.col ↔ t.Aligned) ∧ t.Aligned := by
  obtain ⟨t, hrun, -⟩ := (WellFormed.new (by decide : Addressable 6 4) 0).exists_run
    (by decide : ∀ op ∈ wideInRegion, op.Admissible)
  have hplace : ((Terminal.new 6 4 0).run wideInRegion).toOption.map (fun t =>
      decide (t.cursor.col < t.cols ∧ t.has .originMode = true ∧ t.InRegion ∧ t.Aligned)) =
      some true := by decide +kernel
  have hasked : ((Terminal.new 6 4 0).run wideInRegion).toOption.map (fun t =>
      ((Interpreter.mk {} t).feedText askCursor).toOption.map Prod.snd) =
      some (some [.cursorPosition 2 4]) := by decide +kernel
  rw [hrun] at hplace hasked
  obtain ⟨hcol, horigin, hregion, haligned⟩ := of_decide_eq_true (Option.some.inj hplace)
  obtain ⟨i, hreport⟩ := exists_of_replies_eq (Option.some.inj hasked)
  have hreachable : t.Reachable := ⟨6, 4, 0, _, hrun⟩
  obtain ⟨j, hsend, hrow, hiff⟩ :=
    hreachable.cursor_returns_iff hcol (fun _ => hregion) (rfl : Parser.state {} = .ground) hreport
  exact ⟨t, i, j, hreachable, hcol, horigin, hregion, rfl, hreport, hsend, hrow, hiff, haligned⟩

/-- Behind a letter with a mark the cursor is sent onto the mark. -/
theorem not_cursor_returns_mark :
    ¬ ∀ (t : Terminal) (p : Parser) (i : Interpreter) (r c : Nat), t.Reachable → 0 < t.rows →
      t.cursor.col < t.cols → (t.has .originMode = true → t.InRegion) → p.state = .ground →
      (Interpreter.mk p t).feedText askCursor = .ok (i, [.cursorPosition r c]) →
        ∃ j, i.feedText (sendCursor r c) = .ok (j, []) ∧
          j.terminal.cursor.row = t.cursor.row ∧ j.terminal.cursor.col = t.cursor.col := by
  intro hall
  obtain ⟨t, hrun, -⟩ := (WellFormed.new (by decide : Addressable 10 2) 0).exists_run
    (by decide : ∀ op ∈ [.putText ['e', '\u0301']], Operation.Admissible op)
  have hplace : ((Terminal.new 10 2 0).run [.putText ['e', '\u0301']]).toOption.map (fun t =>
      decide (t.cursor.col = 2 ∧ t.cols = 10 ∧ t.rows = 2 ∧ t.has .originMode = false)) =
      some true := by decide +kernel
  have hasked : ((Terminal.new 10 2 0).run [.putText ['e', '\u0301']]).toOption.map (fun t =>
      ((Interpreter.mk {} t).feedText askCursor).toOption.map Prod.snd) =
      some (some [.cursorPosition 1 2]) := by decide +kernel
  rw [hrun] at hplace hasked
  obtain ⟨hcol, hcols, hrows, horigin⟩ := of_decide_eq_true (Option.some.inj hplace)
  obtain ⟨i, hreport⟩ := exists_of_replies_eq (Option.some.inj hasked)
  obtain ⟨j, hsend, -, hback⟩ := hall t {} i 1 2 ⟨10, 2, 0, _, hrun⟩ (by omega) (by omega)
    (fun hon => absurd hon (by simp [horigin])) rfl hreport
  obtain ⟨hterminal, hground, -⟩ := of_feedText_askCursor rfl hreport
  obtain ⟨q, hsent⟩ := exists_feedText_sendCursor hground (r := 1) (c := 2) (by decide) (by decide)
  obtain ⟨rfl, -⟩ := Prod.mk.inj (Except.ok.inj (hsend.symm.trans hsent))
  rw [col_cursorPosition, hterminal, hcol, hcols] at hback
  exact absurd hback (by decide)

end VideoTerminal.Terminal
