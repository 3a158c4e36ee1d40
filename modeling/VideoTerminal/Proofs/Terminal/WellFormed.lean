import VideoTerminal.Proofs.Screen.WellFormed
import VideoTerminal.Proofs.Terminal.Operation

/-!
# Well-formed terminals

Both pages of a well-formed terminal have its size, and only the primary one a history.  The region
that scrolls lies on the screen.  Two of the modes are also kept in fields of their own: which page
is shown and whether drawing is suspended; field and mode agree.

This file shows that the operations that cannot fail keep a terminal well-formed, and its size and
limit the same.  Nearly all of them only change the page that is shown, for which `modifyActive`
asks no more than that the new page is well-formed.
-/

namespace VideoTerminal.Terminal

/-- A terminal of the given size and with the given limit to its history. -/
structure WellFormed (t : Terminal) (cols rows limit : Nat) : Prop where
  cols_eq : t.cols = cols
  rows_eq : t.rows = rows
  limit_eq : t.scrollbackLimit = limit
  addressable : Addressable cols rows
  primary : t.primary.WellFormed cols rows limit
  /-- The alternate page never has a history. -/
  alternate : t.alternate.WellFormed cols rows 0
  top_le_bottom : t.region.top ≤ t.region.bottom
  bottom_lt : t.region.bottom < rows
  usingAlternate_eq : t.usingAlternate = t.has .alternateBuffer
  renderSuspended_eq : t.renderSuspended = t.has .synchronizedUpdate

namespace WellFormed

variable {t : Terminal} {cols rows limit : Nat}

/-- A new terminal is well-formed, in a size that can be addressed. -/
theorem new (h : Addressable cols rows) (limit : Nat) :
    (Terminal.new cols rows limit).WellFormed cols rows limit where
  cols_eq := rfl
  rows_eq := rfl
  limit_eq := rfl
  addressable := h
  primary := .new h.rows_pos
  alternate := .new h.rows_pos
  top_le_bottom := Nat.zero_le _
  bottom_lt := by
    have hpos := h.rows_pos
    simp only [Terminal.new, fullRegion]
    omega
  usingAlternate_eq := by simp [Terminal.new, has, ModeSet.contains_set]
  renderSuspended_eq := by simp [Terminal.new, has, ModeSet.contains_set]

/-! ## Changing the page that is shown -/

/-- The page that is shown is well-formed, for one of the two limits. -/
theorem active (h : t.WellFormed cols rows limit) :
    ∃ shown, t.active.WellFormed cols rows shown := by
  unfold Terminal.active
  split
  · exact ⟨0, h.alternate⟩
  · exact ⟨limit, h.primary⟩

/-- A change of the page that is shown, whatever that page's limit. -/
theorem modifyActive (h : t.WellFormed cols rows limit) {f : Page → Page}
    (hf : ∀ shown, t.active.WellFormed cols rows shown →
      (f t.active).WellFormed cols rows shown) :
    (t.modifyActive f).WellFormed cols rows limit := by
  have hp : t.usingAlternate = false → (f t.primary).WellFormed cols rows limit := by
    intro hu
    have hf := hf limit
    simp only [Terminal.active, hu] at hf
    exact hf h.primary
  have ha : t.usingAlternate = true → (f t.alternate).WellFormed cols rows 0 := by
    intro hu
    have hf := hf 0
    simp only [Terminal.active, hu] at hf
    exact hf h.alternate
  unfold Terminal.modifyActive
  split
  · next hu => exact { h with alternate := ha hu }
  · next hu => exact { h with primary := hp (Bool.eq_false_iff.mpr hu) }

/-- The cursor of a well-formed terminal is on the screen. -/
theorem cursor (h : t.WellFormed cols rows limit) : t.cursor.OnScreen cols rows := by
  obtain ⟨shown, hshown⟩ := h.active
  exact hshown.cursor

/-- A well-formed terminal has the rows of its screen. -/
theorem length_rows (h : t.WellFormed cols rows limit) : t.active.rows.length = rows := by
  obtain ⟨shown, hshown⟩ := h.active
  exact hshown.length_rows

/-- The row on which the cursor stands. -/
theorem exists_cursorRow (h : t.WellFormed cols rows limit) :
    ∃ r, t.active.rows[t.cursor.row]? = some r ∧ r.cells.length = cols := by
  obtain ⟨shown, hshown⟩ := h.active
  exact hshown.exists_cursorRow

/-- The cursor may go to any column, and behind the last one. -/
theorem moveToCol (h : t.WellFormed cols rows limit) {col : Nat} (hcol : col ≤ cols) :
    (t.modifyActive fun p => p.moveToCol col).WellFormed cols rows limit :=
  h.modifyActive fun _ hp => hp.moveToCol hcol

/-- The cursor may go to any row. -/
theorem moveToRow (h : t.WellFormed cols rows limit) {row : Nat} (hrow : row < rows) :
    (t.modifyActive fun p => p.moveToRow row).WellFormed cols rows limit :=
  h.modifyActive fun _ hp => hp.moveToRow hrow

/-- A change of the cursor that leaves its place and what was saved of it. -/
theorem modifyCursor (h : t.WellFormed cols rows limit) {f : Cursor → Cursor}
    (hf : ∀ c : Cursor, c.OnScreen cols rows → (f c).OnScreen cols rows) :
    (t.modifyCursor f).WellFormed cols rows limit :=
  h.modifyActive fun _ hp => hp.withCursor (hf _ hp.cursor)

/-! ## Changing what the pages share -/

theorem withStyle (h : t.WellFormed cols rows limit) (style : Style) :
    { t with style := style }.WellFormed cols rows limit :=
  { h with }

theorem withTitle (h : t.WellFormed cols rows limit) (title : String) :
    { t with title := title }.WellFormed cols rows limit :=
  { h with }

/-- The region may be any that lies on the screen. -/
theorem withRegion (h : t.WellFormed cols rows limit) {r : Region} (htop : r.top ≤ r.bottom)
    (hbottom : r.bottom < rows) : { t with region := r }.WellFormed cols rows limit :=
  { h with top_le_bottom := htop, bottom_lt := hbottom }

theorem resetRegion (h : t.WellFormed cols rows limit) :
    { t with region := fullRegion t.rows }.WellFormed cols rows limit := by
  have hpos := h.addressable.rows_pos
  have hrows := h.rows_eq
  refine h.withRegion (Nat.zero_le _) ?_
  simp only [fullRegion]
  omega

/-! ## Scrolling and moving -/

/-- Scrolling keeps the size of the screen, and the history within its limit. -/
theorem scrollUp (h : t.WellFormed cols rows limit) (n : Nat) :
    (t.scrollUp n).WellFormed cols rows limit := by
  unfold Terminal.scrollUp
  dsimp only
  split
  · rw [h.cols_eq]
    exact h.modifyActive fun _ hp =>
      (hp.scrollUp h.top_le_bottom h.bottom_lt _ _).markAllDirty
  · exact h

theorem scrollDown (h : t.WellFormed cols rows limit) (n : Nat) :
    (t.scrollDown n).WellFormed cols rows limit := by
  unfold Terminal.scrollDown
  dsimp only
  split
  · rw [h.cols_eq]
    exact h.modifyActive fun _ hp => (hp.scrollDown h.top_le_bottom h.bottom_lt _).markAllDirty
  · exact h

theorem carriageReturn (h : t.WellFormed cols rows limit) :
    t.carriageReturn.WellFormed cols rows limit :=
  h.modifyActive fun _ hp => (hp.moveToCol (Nat.zero_le cols)).markDirty _

/-- Going down a row, the cursor stays on the screen. -/
theorem index (h : t.WellFormed cols rows limit) : t.index.WellFormed cols rows limit := by
  have hrows := h.rows_eq
  unfold Terminal.index
  dsimp only
  split
  · exact h.scrollUp 1
  · split
    · next hlt => exact h.moveToRow (by omega)
    · exact h

theorem lineFeed (h : t.WellFormed cols rows limit) : t.lineFeed.WellFormed cols rows limit := by
  unfold Terminal.lineFeed
  split
  · exact (h.moveToCol (Nat.zero_le cols)).index
  · exact h.index

theorem cursorUp (h : t.WellFormed cols rows limit) (n : Nat) :
    (t.cursorUp n).WellFormed cols rows limit :=
  h.modifyActive fun _ hp => hp.moveToRow (Nat.lt_of_le_of_lt (Nat.sub_le _ n) hp.cursor.row_lt)

/-- A count that goes too far ends in the last row. -/
theorem cursorDown (h : t.WellFormed cols rows limit) (n : Nat) :
    (t.cursorDown n).WellFormed cols rows limit := by
  have hpos := h.addressable.rows_pos
  have hrows := h.rows_eq
  exact h.modifyActive fun _ hp => hp.moveToRow (by omega)

/-- Going up a row, the cursor stays on the screen. -/
theorem reverseIndex (h : t.WellFormed cols rows limit) :
    t.reverseIndex.WellFormed cols rows limit := by
  unfold Terminal.reverseIndex
  split
  · exact h.scrollDown 1
  · exact h.cursorUp 1

/-- A count that goes too far ends in the last column. -/
theorem cursorForward (h : t.WellFormed cols rows limit) (n : Nat) :
    (t.cursorForward n).WellFormed cols rows limit := by
  have hcols := h.cols_eq
  exact h.modifyActive fun _ hp => hp.moveToCol (by omega)

theorem cursorBackward (h : t.WellFormed cols rows limit) (n : Nat) :
    (t.cursorBackward n).WellFormed cols rows limit := by
  have hcols := h.cols_eq
  exact h.modifyActive fun _ hp => hp.moveToCol (by omega)

/-- A column that is too far is the last one. -/
theorem cursorColumn (h : t.WellFormed cols rows limit) (col : Nat) :
    (t.cursorColumn col).WellFormed cols rows limit := by
  have hcols := h.cols_eq
  exact h.moveToCol (by omega)

/-- The rows that a position may name are rows of the screen. -/
theorem addressable_bottom_lt (h : t.WellFormed cols rows limit) :
    t.addressable.bottom < rows := by
  have hpos := h.addressable.rows_pos
  have hrows := h.rows_eq
  unfold Terminal.addressable
  split
  · exact h.bottom_lt
  · simp only [fullRegion]
    omega

theorem cursorRow (h : t.WellFormed cols rows limit) (row : Nat) :
    (t.cursorRow row).WellFormed cols rows limit :=
  h.moveToRow (Nat.lt_of_le_of_lt (Nat.min_le_right _ _) h.addressable_bottom_lt)

/-- A place that is too far is on the margin. -/
theorem cursorPosition (h : t.WellFormed cols rows limit) (row col : Nat) :
    (t.cursorPosition row col).WellFormed cols rows limit :=
  (h.cursorRow row).cursorColumn col

/-- A region that does not fit is not set. -/
theorem setScrollRegion (h : t.WellFormed cols rows limit) (top bottom : Nat) :
    (t.setScrollRegion top bottom).WellFormed cols rows limit := by
  have hpos := h.addressable.rows_pos
  have hrows := h.rows_eq
  unfold Terminal.setScrollRegion
  dsimp only
  split
  · next hlt =>
    refine (h.withRegion (Nat.le_of_lt hlt) ?_).cursorPosition 1 1
    dsimp only
    omega
  · exact h

/-! ## Editing and erasing -/

/-- An edit of the cursor's row that keeps the number of its cells. -/
theorem editCursorRow (h : t.WellFormed cols rows limit) {edit : Cells → Nat → Cells}
    (hedit : ∀ cells col, (edit cells col).length = cells.length) :
    (t.editCursorRow edit).WellFormed cols rows limit := by
  refine h.modifyActive fun shown hp => ?_
  split
  · split
    · exact hp.editRow _ fun r hr => (hedit r.cells _).trans hr
    · exact hp
  · exact hp

/-- Inserting blanks keeps the width of the row. -/
theorem insertChars (h : t.WellFormed cols rows limit) (n : Nat) :
    (t.insertChars n).WellFormed cols rows limit :=
  h.editCursorRow fun cells col => Cells.length_insertBlanks cells col n t.blank

theorem deleteChars (h : t.WellFormed cols rows limit) (n : Nat) :
    (t.deleteChars n).WellFormed cols rows limit :=
  h.editCursorRow fun cells col => Cells.length_deleteCells cells col n t.blank

theorem eraseChars (h : t.WellFormed cols rows limit) (n : Nat) :
    (t.eraseChars n).WellFormed cols rows limit :=
  h.editCursorRow fun cells col => Cells.length_eraseCells cells col n t.blank

theorem eraseInLine (h : t.WellFormed cols rows limit) (part : Nat) :
    (t.eraseInLine part).WellFormed cols rows limit := by
  refine h.modifyActive fun shown hp => ?_
  match part with
  | 0 | 1 | 2 =>
      refine hp.editRow _ fun r hr => ?_
      rw [Cells.length_fill]
      exact hr
  | _ + 3 => exact hp

/-- Erasing on the screen keeps the width of all rows. -/
theorem eraseInDisplay (h : t.WellFormed cols rows limit) (part : Nat) :
    (t.eraseInDisplay part).WellFormed cols rows limit := by
  unfold Terminal.eraseInDisplay
  split
  · exact (h.eraseInLine 0).modifyActive fun _ hp => hp.clearRows _ _ _
  · exact (h.eraseInLine 1).modifyActive fun _ hp => hp.clearRows _ _ _
  · exact h.modifyActive fun _ hp => hp.clearRows _ _ _
  · refine h.modifyActive fun shown hp => ?_
    have hcleared := hp.clearRows 0 t.rows t.blank
    exact { hcleared with length_history := by simp, size_history := Nat.zero_le _ }
  · exact h

theorem clearScreen (h : t.WellFormed cols rows limit) :
    t.clearScreen.WellFormed cols rows limit :=
  (h.eraseInDisplay 2).cursorPosition 1 1

end WellFormed

end VideoTerminal.Terminal
