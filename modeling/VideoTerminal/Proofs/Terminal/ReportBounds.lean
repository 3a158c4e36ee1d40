import VideoTerminal.Proofs.Terminal.Coordinates
import VideoTerminal.Proofs.Terminal.Report

/-!
# Reports that name a place on the screen

A program learns the size of the screen by sending the cursor far away and asking where it is.  The
row that it is told is always one of the screen.  The column is one of the screen unless the cursor
is seen behind the last column (`Terminal.SeenBehind`): while a wrap is pending behind a row that is
full of columns, or on the second half of a wide character that ends in the last column.  Then the
report names the column after the last one (`Reachable.report_on_screen_iff`).
-/

namespace VideoTerminal.Terminal

/-- The cursor is seen behind the last column: it stands behind the last slot, and as many slots
take no column as wide characters begin before it; or it stands on the last slot, which is the
second half of a wide character, so that one wide character more has begun. -/
def SeenBehind (t : Terminal) : Prop :=
  match t.active.rows[t.cursor.row]? with
  | some row =>
    let slots := row.cells.line.structuralBefore t.cursor.col
    let wide := row.cells.line.wideBefore t.cols t.cursor.col
    (t.cursor.col = t.cols ∧ slots = wide) ∨ (t.cursor.col + 1 = t.cols ∧ slots + 1 = wide)
  | none => t.cursor.col = t.cols

instance (t : Terminal) : Decidable t.SeenBehind :=
  match hrow : t.active.rows[t.cursor.row]? with
  | some row =>
    let slots := row.cells.line.structuralBefore t.cursor.col
    let wide := row.cells.line.wideBefore t.cols t.cursor.col
    decidable_of_iff
      ((t.cursor.col = t.cols ∧ slots = wide) ∨ (t.cursor.col + 1 = t.cols ∧ slots + 1 = wide))
      (by simp only [SeenBehind, hrow, slots, wide])
  | none => decidable_of_iff (t.cursor.col = t.cols) (by simp only [SeenBehind, hrow])

/-- The cursor is seen behind the last column exactly if its column is the width. -/
theorem InColumns.seenBehind_iff {t : Terminal} (h : t.InColumns) :
    t.SeenBehind ↔ t.visualCursorCol = t.cols := by
  have hcol := h.shown
  unfold SeenBehind
  cases hrow : t.active.rows[t.cursor.row]? with
  | none =>
      have hsame : t.visualCursorCol = t.cursor.col := by
        unfold visualCursorCol
        rw [hrow]
      rw [hsame]
  | some row =>
      have hcount := row.cells.line.columnsBefore_add_structuralBefore t.cols t.cursor.col
      have hlt := row.cells.line.columnsBefore_lt_add_closingWidth t.cols hcol
      have htwo := row.cells.line.closingWidth_le_two (t.cols - t.cursor.col) t.cursor.col
      rw [visualCursorCol_of_row hrow, Line.visualColumn, Nat.min_eq_left hcol]
      dsimp only
      constructor
      · omega
      · intro hfull
        -- At most the column of one unfinished wide character lies ahead of the slots.
        rcases Nat.eq_or_lt_of_le hcol with hend | hbefore
        · left
          omega
        · right
          omega

/-! ## The report -/

/-- What is reported, if the numbers are coordinates. -/
theorem cursorReport_eq {t : Terminal} (hrow : t.cursor.row < maxCoordinate)
    (hcol : t.visualCursorCol < maxCoordinate) :
    t.cursorReport = .ok (.cursorPosition
      (t.cursor.row - (if t.has .originMode then t.region.top else 0) + 1)
      (t.visualCursorCol + 1)) := by
  have hrowOk : ∀ top, coordinate (t.cursor.row - top + 1) = .ok (t.cursor.row - top + 1) :=
    fun top => coordinate_eq_ok_iff.mpr ⟨by omega, rfl⟩
  have hcolOk : coordinate (t.visualCursorCol + 1) = .ok (t.visualCursorCol + 1) :=
    coordinate_eq_ok_iff.mpr ⟨hcol, rfl⟩
  unfold cursorReport
  dsimp only
  rw [hrowOk, hcolOk]
  rfl

/-- Asking replies what is reported. -/
theorem exists_feedText_askCursor {t : Terminal} {p : Parser} (hp : p.state = .ground)
    {reply : Reply} (h : t.cursorReport = .ok reply) :
    ∃ i, (Interpreter.mk p t).feedText askCursor = .ok (i, [reply]) := by
  have hwritable : Sequence.Writable ⟨[], [6], 'n'⟩ :=
    ⟨List.all_eq_true.mp (by decide), by decide, by decide, by decide⟩
  have hfeed : (Interpreter.mk p t).feedText askCursor =
      (t.performAll [.reportCursor]).map fun out =>
        (⟨{ p with state := .ground, params := [6], marks := [], number := none }, out.1⟩, out.2) :=
    Interpreter.feedText_sequence hp hwritable
  rw [performAll, perform_reportCursor, h] at hfeed
  exact ⟨_, hfeed⟩

/-- **Reports name a place on the screen** unless the cursor is seen behind the last column.  Then
they name the column after it, in a row of the screen all the same, as long as there is a coordinate
for it. -/
theorem Reachable.report_on_screen_iff {t : Terminal} (h : t.Reachable)
    (hcolsLe : t.cols ≤ maxCoordinate) (hrows : 0 < t.rows) (hrowsLe : t.rows ≤ maxCoordinate)
    {p : Parser} (hp : p.state = .ground) :
    ((∃ i r c, (Interpreter.mk p t).feedText askCursor = .ok (i, [.cursorPosition r c]) ∧
        1 ≤ r ∧ r ≤ t.rows ∧ 1 ≤ c ∧ c ≤ t.cols) ↔ ¬ t.SeenBehind) ∧
      (t.SeenBehind → t.cols < maxCoordinate → ∃ i r, (Interpreter.mk p t).feedText askCursor =
        .ok (i, [.cursorPosition r (t.cols + 1)]) ∧ 1 ≤ r ∧ r ≤ t.rows) := by
  have hrow := h.seated.shown
  have hvisual := h.inColumns.visualCursorCol_le
  have hbehind := h.inColumns.seenBehind_iff
  have hrowLt : t.cursor.row < maxCoordinate := by omega
  refine ⟨⟨?_, fun hinside => ?_⟩, fun hseen hroom => ?_⟩
  · rintro ⟨i, r, c, hreport, -, -, -, hc⟩ hseen
    obtain ⟨-, -, hok⟩ := of_feedText_askCursor hp hreport
    obtain ⟨-, -, hcol, -⟩ := of_cursorReport_eq_ok hok
    have hfull := hbehind.mp hseen
    omega
  · have hlt : t.visualCursorCol < t.cols :=
      Nat.lt_of_le_of_ne hvisual fun hfull => hinside (hbehind.mpr hfull)
    obtain ⟨i, hreport⟩ :=
      exists_feedText_askCursor hp (cursorReport_eq hrowLt (Nat.lt_of_lt_of_le hlt hcolsLe))
    exact ⟨i, _, _, hreport, by omega, by omega, by omega, hlt⟩
  · have hfull := hbehind.mp hseen
    obtain ⟨i, hreport⟩ :=
      exists_feedText_askCursor hp (cursorReport_eq hrowLt (hfull ▸ hroom))
    rw [hfull] at hreport
    exact ⟨i, _, hreport, by omega, by omega⟩

/-- In a region, under origin mode and behind a wide character the report stays on the screen. -/
theorem report_on_screen_iff_wide :
    ∃ t : Terminal, t.Reachable ∧ t.cols ≤ maxCoordinate ∧ 0 < t.rows ∧ t.rows ≤ maxCoordinate ∧
      t.has .originMode = true ∧ ¬ t.SeenBehind ∧ Parser.state {} = .ground ∧
      ∃ i r c, (Interpreter.mk {} t).feedText askCursor = .ok (i, [.cursorPosition r c]) ∧
        1 ≤ r ∧ r ≤ t.rows ∧ 1 ≤ c ∧ c ≤ t.cols := by
  obtain ⟨t, hrun, -⟩ := (WellFormed.new (by decide : Addressable 6 4) 0).exists_run
    (by decide : ∀ op ∈ wideInRegion, op.Admissible)
  have hplace : ((Terminal.new 6 4 0).run wideInRegion).toOption.map (fun t =>
      decide (t.cols ≤ maxCoordinate ∧ 0 < t.rows ∧ t.rows ≤ maxCoordinate ∧
        t.has .originMode = true ∧ ¬ t.SeenBehind)) = some true := by decide +kernel
  rw [hrun] at hplace
  obtain ⟨hcols, hrows, hrowsLe, horigin, hinside⟩ := of_decide_eq_true (Option.some.inj hplace)
  have hreachable : t.Reachable := ⟨6, 4, 0, _, hrun⟩
  exact ⟨t, hreachable, hcols, hrows, hrowsLe, horigin, hinside, rfl,
    (hreachable.report_on_screen_iff hcols hrows hrowsLe rfl).1.mpr hinside⟩

/-- Behind five letters in five columns the sixth column is reported. -/
theorem not_report_on_screen :
    ¬ ∀ (t : Terminal) (p : Parser), t.Reachable → 0 < t.cols → 0 < t.rows → p.state = .ground →
      ∃ i r c, (Interpreter.mk p t).feedText askCursor = .ok (i, [.cursorPosition r c]) ∧
        1 ≤ r ∧ r ≤ t.rows ∧ 1 ≤ c ∧ c ≤ t.cols := by
  intro hall
  obtain ⟨t, hrun, -⟩ := (WellFormed.new (by decide : Addressable 5 1) 0).exists_run
    (by decide : ∀ op ∈ [.putText ['a', 'b', 'c', 'd', 'e']], Operation.Admissible op)
  have hsize : ((Terminal.new 5 1 0).run [.putText ['a', 'b', 'c', 'd', 'e']]).toOption.map
      (fun t => (t.cols, t.rows)) = some (5, 1) := by decide +kernel
  have hasked : ((Terminal.new 5 1 0).run [.putText ['a', 'b', 'c', 'd', 'e']]).toOption.map
      (fun t => ((Interpreter.mk {} t).feedText askCursor).toOption.map Prod.snd) =
      some (some [.cursorPosition 1 6]) := by decide +kernel
  rw [hrun] at hsize hasked
  obtain ⟨hcols, hrows⟩ := Prod.mk.inj (Option.some.inj hsize)
  obtain ⟨i, hreport⟩ := exists_of_replies_eq (Option.some.inj hasked)
  obtain ⟨j, r, c, hinside, -, -, -, hc⟩ :=
    hall t {} ⟨5, 1, 0, _, hrun⟩ (hcols ▸ by decide) (hrows ▸ by decide) rfl
  rw [hreport] at hinside
  obtain ⟨-, hreply⟩ := Prod.mk.inj (Except.ok.inj hinside)
  obtain ⟨-, rfl⟩ := Reply.cursorPosition.inj (List.cons.inj hreply).1
  rw [hcols] at hc
  exact absurd hc (by decide)

end VideoTerminal.Terminal
