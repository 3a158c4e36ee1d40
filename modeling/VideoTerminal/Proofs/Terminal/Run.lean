import VideoTerminal.Proofs.Control.Interpreter
import VideoTerminal.Proofs.Line.Columns
import VideoTerminal.Proofs.Terminal.Modes
import VideoTerminal.Proofs.Terminal.Print

/-!
# Every run keeps a terminal well-formed

What one action keeps, a text keeps, and what one operation keeps, a run keeps.  The main statement
is `exists_run_new`: on a fresh terminal of an addressable size, every run of operations goes
through to its end without a fault and leaves a well-formed terminal of the size that was asked for
last.

The only action besides printing that could fail for its arithmetic is the cursor report, which adds
one to a visible column; `visualColumn_le_width` bounds that column by the width.
-/

namespace VideoTerminal.Terminal

namespace WellFormed

variable {t : Terminal} {cols rows limit : Nat}

/-- The column at which the cursor is seen is a column of the screen, or the one behind it. -/
theorem visualCursorCol_le (h : t.WellFormed cols rows limit) : t.visualCursorCol ≤ cols := by
  unfold visualCursorCol
  split
  · rw [h.cols_eq]
    exact Line.visualColumn_le_width _ _ _
  · exact h.cursor.col_le

/-- A well-formed terminal can say where its cursor is. -/
theorem exists_cursorReport (h : t.WellFormed cols rows limit) :
    ∃ reply, t.cursorReport = .ok reply := by
  have hrow := h.cursor.row_lt
  have hcol := h.visualCursorCol_le
  have hrows := h.addressable.rows_le
  have hcols := h.addressable.cols_le
  have hok : ∀ n, n ≤ maxCoordinate → coordinate n = .ok n :=
    fun n hn => coordinate_eq_ok_iff.mpr ⟨hn, rfl⟩
  unfold cursorReport
  dsimp only
  rw [hok (t.visualCursorCol + 1) (by omega), hok _ (by omega)]
  exact ⟨_, rfl⟩

/-- On a well-formed terminal a tab goes through. -/
theorem exists_horizontalTab (h : t.WellFormed cols rows limit) :
    ∃ t', t.horizontalTab = .ok t' ∧ t'.WellFormed cols rows limit := by
  have hcol := h.cursor.col_le
  have hcols := h.cols_eq
  have hmax := h.addressable.cols_le
  have hstop : coordinate ((t.cursor.col / 8 + 1) * 8) = .ok ((t.cursor.col / 8 + 1) * 8) :=
    coordinate_eq_ok_iff.mpr ⟨by omega, rfl⟩
  unfold Terminal.horizontalTab
  rw [hstop]
  exact ⟨_, rfl, h.moveToCol (by omega)⟩

/-- Within the region there are rows to open and to remove. -/
theorem exists_insertLines (h : t.WellFormed cols rows limit) (n : Nat) :
    ∃ t', t.insertLines n = .ok t' ∧ t'.WellFormed cols rows limit := by
  have hbottom := h.bottom_lt
  have hlen := h.length_rows
  unfold Terminal.insertLines
  dsimp only
  by_cases hout : t.cursor.row < t.region.top ∨ t.region.bottom < t.cursor.row
  · rw [if_pos hout]
    exact ⟨t, rfl, h⟩
  · rw [if_neg hout, if_neg (by omega), h.cols_eq]
    exact ⟨_, rfl, h.modifyActive fun _ hp =>
      (hp.scrollDown (by omega) hbottom _).markAllDirty⟩

/-- On a well-formed terminal lines can be deleted. -/
theorem exists_deleteLines (h : t.WellFormed cols rows limit) (n : Nat) :
    ∃ t', t.deleteLines n = .ok t' ∧ t'.WellFormed cols rows limit := by
  have hbottom := h.bottom_lt
  have hlen := h.length_rows
  unfold Terminal.deleteLines
  dsimp only
  by_cases hout : t.cursor.row < t.region.top ∨ t.region.bottom < t.cursor.row
  · rw [if_pos hout]
    exact ⟨t, rfl, h⟩
  · rw [if_neg hout, if_neg (by omega), h.cols_eq]
    exact ⟨_, rfl, h.modifyActive fun _ hp =>
      (hp.scrollUp (by omega) hbottom _ _).markAllDirty⟩

/-- A reset terminal is well-formed. -/
theorem reset (h : t.WellFormed cols rows limit) : t.reset.WellFormed cols rows limit := by
  unfold Terminal.reset
  rw [h.cols_eq, h.rows_eq, h.limit_eq]
  exact .new h.addressable limit

/-- A request to render keeps a terminal well-formed. -/
theorem takeRenderRequest (h : t.WellFormed cols rows limit) :
    t.takeRenderRequest.2.WellFormed cols rows limit := by
  unfold Terminal.takeRenderRequest
  split
  · exact h
  · exact { h with
      primary := h.primary.of_frame rfl rfl rfl h.primary.cursor
      alternate := h.alternate.of_frame rfl rfl rfl h.alternate.cursor }

/-- A well-formed terminal of any size becomes one of the new size, with the same limit. -/
theorem resize (h : t.WellFormed cols rows limit) {newCols newRows : Nat}
    (hsize : Addressable newCols newRows) :
    (t.resize newCols newRows).WellFormed newCols newRows limit where
  cols_eq := rfl
  rows_eq := rfl
  limit_eq := h.limit_eq
  addressable := hsize
  primary := h.primary.resize newCols hsize.rows_pos
  alternate := h.alternate.resize newCols hsize.rows_pos
  top_le_bottom := Nat.zero_le _
  bottom_lt := Nat.sub_lt hsize.rows_pos Nat.one_pos
  usingAlternate_eq := h.usingAlternate_eq
  renderSuspended_eq := h.renderSuspended_eq

/-! ## Actions -/

/-- An action that never fails keeps a terminal well-formed. -/
theorem performSimple (h : t.WellFormed cols rows limit) (action : Action) :
    (t.performSimple action).WellFormed cols rows limit := by
  cases action with
  | backspace => exact h.cursorBackward 1
  | lineFeed => exact h.lineFeed
  | carriageReturn => exact h.carriageReturn
  | saveCursor => exact h.saveCursor
  | restoreCursor => exact h.restoreCursor
  | index => exact h.index
  | nextLine => exact h.carriageReturn.index
  | reverseIndex => exact h.reverseIndex
  | reset => exact h.reset
  | applicationKeypad on => exact h.setMode .keypad on
  | setTitle title => exact h.withTitle title
  | cursorUp n => exact h.cursorUp n
  | cursorDown n => exact h.cursorDown n
  | cursorForward n => exact h.cursorForward n
  | cursorBackward n => exact h.cursorBackward n
  | cursorNextLine n => exact (h.cursorDown n).carriageReturn
  | cursorPreviousLine n => exact (h.cursorUp n).carriageReturn
  | cursorColumn col => exact h.cursorColumn col
  | cursorRow row => exact h.cursorRow row
  | cursorPosition row col => exact h.cursorPosition row col
  | eraseInDisplay part => exact h.eraseInDisplay part
  | eraseInLine part => exact h.eraseInLine part
  | insertChars n => exact h.insertChars n
  | deleteChars n => exact h.deleteChars n
  | eraseChars n => exact h.eraseChars n
  | scrollUp n => exact h.scrollUp n
  | scrollDown n => exact h.scrollDown n
  | setScrollRegion top bottom => exact h.setScrollRegion top _
  | selectRendition params => exact h.withStyle _
  | setPrivateModes codes on => exact h.setPrivateModes on codes
  | setStandardModes codes on => exact h.setStandardModes on codes
  | setCursorShape code =>
      change (t.modifyCursor fun c => { c with shape := .ofCode code }).WellFormed cols rows limit
      refine h.modifyCursor ?_
      intro c hc
      exact ⟨hc.row_lt, hc.col_le, hc.saved⟩
  | protectText on => exact h.withStyle _
  | print c => exact h
  | horizontalTab => exact h
  | insertLines n => exact h
  | deleteLines n => exact h
  | reportStatus => exact h
  | reportCursor => exact h
  | reportAttributes => exact h
  | reportSecondaryAttributes => exact h

/-- Every action is carried out. -/
theorem exists_perform (h : t.WellFormed cols rows limit) (action : Action) :
    ∃ t' replies, t.perform action = .ok (t', replies) ∧ t'.WellFormed cols rows limit := by
  have hsimple := h.performSimple action
  cases action with
  | print c =>
      obtain ⟨t', hok, ht'⟩ := h.exists_putChar c
      exact ⟨t', [], by rw [perform_print, hok]; rfl, ht'⟩
  | horizontalTab =>
      obtain ⟨t', hok, ht'⟩ := h.exists_horizontalTab
      exact ⟨t', [], by rw [perform_horizontalTab, hok]; rfl, ht'⟩
  | insertLines n =>
      obtain ⟨t', hok, ht'⟩ := h.exists_insertLines n
      exact ⟨t', [], by rw [perform_insertLines, hok]; rfl, ht'⟩
  | deleteLines n =>
      obtain ⟨t', hok, ht'⟩ := h.exists_deleteLines n
      exact ⟨t', [], by rw [perform_deleteLines, hok]; rfl, ht'⟩
  | reportCursor =>
      obtain ⟨reply, hok⟩ := h.exists_cursorReport
      exact ⟨t, [reply], by rw [perform_reportCursor, hok]; rfl, h⟩
  | reportStatus => exact ⟨t, _, rfl, h⟩
  | reportAttributes => exact ⟨t, _, rfl, h⟩
  | reportSecondaryAttributes => exact ⟨t, _, rfl, h⟩
  | _ => exact ⟨_, [], rfl, hsimple⟩

/-- **Actions go through** on a well-formed terminal. -/
theorem exists_performAll (h : t.WellFormed cols rows limit) (actions : List Action) :
    ∃ t' replies, t.performAll actions = .ok (t', replies) ∧ t'.WellFormed cols rows limit := by
  induction actions generalizing t with
  | nil => exact ⟨t, [], rfl, h⟩
  | cons action rest ih =>
      obtain ⟨middle, first, hok, hmiddle⟩ := h.exists_perform action
      obtain ⟨t', more, hrest, ht'⟩ := ih hmiddle
      refine ⟨t', first ++ more, ?_, ht'⟩
      rw [performAll, hok]
      change (middle.performAll rest >>= _) = _
      rw [hrest]
      rfl

/-! ## Texts and runs -/

/-- Every character is interpreted, whatever the parser has read before. -/
theorem exists_feed {i : Interpreter} (h : i.terminal.WellFormed cols rows limit) (c : Char) :
    ∃ i' replies, i.feed c = .ok (i', replies) ∧ i'.terminal.WellFormed cols rows limit := by
  obtain ⟨t', replies, hok, ht'⟩ := h.exists_performAll (i.parser.step c).2
  refine ⟨⟨(i.parser.step c).1, t'⟩, replies, ?_, ht'⟩
  change (i.terminal.performAll (i.parser.step c).2 >>= _) = _
  rw [hok]
  rfl

/-- The characters of a text go through one after the other. -/
theorem exists_feedNext {i : Interpreter} (h : i.terminal.WellFormed cols rows limit)
    (replies : List Reply) (text : List Char) :
    ∃ i' more, text.foldlM Interpreter.feedNext (i, replies) = .ok (i', more) ∧
      i'.terminal.WellFormed cols rows limit := by
  induction text generalizing i replies with
  | nil => exact ⟨i, replies, rfl, h⟩
  | cons c rest ih =>
      obtain ⟨middle, first, hok, hmiddle⟩ := exists_feed h c
      obtain ⟨i', more, hrest, hi'⟩ := ih hmiddle (replies ++ first)
      refine ⟨i', more, ?_, hi'⟩
      rw [List.foldlM_cons, Interpreter.feedNext, hok]
      exact hrest

/-- **A text goes through** on a well-formed terminal. -/
theorem exists_feedText {i : Interpreter} (h : i.terminal.WellFormed cols rows limit)
    (text : List Char) :
    ∃ i' replies, i.feedText text = .ok (i', replies) ∧ i'.terminal.WellFormed cols rows limit :=
  i.feedText_eq_foldlM text ▸ exists_feedNext h [] text

/-- Every operation goes through. -/
theorem exists_operate (h : t.WellFormed cols rows limit) {op : Operation} (hop : op.Admissible) :
    ∃ t', t.operate op = .ok t' ∧
      t'.WellFormed (op.sizeAfter (cols, rows)).1 (op.sizeAfter (cols, rows)).2 limit := by
  cases op with
  | perform action =>
      obtain ⟨t', replies, hok, ht'⟩ := h.exists_perform action
      exact ⟨t', by rw [operate, hok]; rfl, ht'⟩
  | feed parser text =>
      obtain ⟨i', replies, hok, hi'⟩ := exists_feedText (i := ⟨parser, t⟩) h text
      exact ⟨i'.terminal, by rw [operate, hok]; rfl, hi'⟩
  | putText text => exact h.exists_putText text
  | setMode m on => exact ⟨_, rfl, h.setMode m on⟩
  | setStyle style => exact ⟨_, rfl, h.withStyle style⟩
  | clearScreen => exact ⟨_, rfl, h.clearScreen⟩
  | resize newCols newRows => exact ⟨_, rfl, h.resize hop⟩
  | clearDirty => exact ⟨_, rfl, h.modifyActive fun _ hp => hp.clearDirty⟩
  | takeRenderRequest => exact ⟨_, rfl, h.takeRenderRequest⟩

/-- Every run goes through. -/
theorem exists_run (h : t.WellFormed cols rows limit) {ops : List Operation}
    (hops : ∀ op ∈ ops, op.Admissible) :
    ∃ t', t.run ops = .ok t' ∧
      t'.WellFormed (ops.foldl Operation.sizeAfter (cols, rows)).1
        (ops.foldl Operation.sizeAfter (cols, rows)).2 limit := by
  induction ops generalizing t cols rows with
  | nil => exact ⟨t, rfl, h⟩
  | cons op rest ih =>
      obtain ⟨hop, hrest⟩ := List.forall_mem_cons.mp hops
      obtain ⟨middle, hok, hmiddle⟩ := h.exists_operate hop
      obtain ⟨t', hrun, ht'⟩ := ih hmiddle hrest
      refine ⟨t', ?_, ht'⟩
      rw [run, List.foldlM_cons, hok]
      exact hrun

end WellFormed

/-- **Runs of a terminal.**  On a fresh terminal of an addressable size every run of operations goes
through to its end: none of them writes to a cell that does not exist or counts beyond the greatest
coordinate.  What is left is a well-formed terminal of the size that was asked for last, with the
limit that the terminal was made with. -/
theorem exists_run_new {cols rows : Nat} (hsize : Addressable cols rows) (limit : Nat)
    {ops : List Operation} (hops : ∀ op ∈ ops, op.Admissible) :
    ∃ t, (Terminal.new cols rows limit).run ops = .ok t ∧
      t.WellFormed (ops.foldl Operation.sizeAfter (cols, rows)).1
        (ops.foldl Operation.sizeAfter (cols, rows)).2 limit :=
  (WellFormed.new hsize limit).exists_run hops

/-- A run with a pending wrap on a screen of three columns, a mark that moves a character to the
next row, the alternate page, and a screen without columns. -/
theorem exists_run_new_narrow :
    Addressable 3 2 ∧
      ∃ t, (Terminal.new 3 2 1).run
          [.putText ['a', 'b', 'c', '\u0301'],
            .feed { state := .sequenceParam, marks := ['?'] } ['4', '7', 'h'],
            .perform (.insertLines 9), .setMode .synchronizedUpdate true, .resize 0 1,
            .putText ['\u4E2D', '\u0301'], .perform .reportCursor, .takeRenderRequest] = .ok t ∧
        t.WellFormed 0 1 1 :=
  ⟨by decide, exists_run_new (by decide) 1 (by decide)⟩

end VideoTerminal.Terminal
