import VideoTerminal.Terminal.Scroll

/-!
# Moving the cursor

Positions that a program gives count from one.  Under origin mode rows are counted from the top of
the scroll region and the cursor cannot be sent out of it.
-/

namespace VideoTerminal.Terminal

/-- To the first column. -/
def carriageReturn (t : Terminal) : Terminal :=
  t.modifyActive fun p => (p.moveToCol 0).markDirty p.cursor.row

/-- One row down; at the bottom of the region, which may lie above, the region scrolls instead. -/
def index (t : Terminal) : Terminal :=
  let row := t.cursor.row
  if row = t.region.bottom then t.scrollUp 1
  else if row < t.rows - 1 then t.modifyActive fun p => p.moveToRow (row + 1)
  else t

/-- Up by `n` rows. -/
def cursorUp (t : Terminal) (n : Nat) : Terminal :=
  t.modifyActive fun p => p.moveToRow (p.cursor.row - n)

/-- Down by `n` rows. -/
def cursorDown (t : Terminal) (n : Nat) : Terminal :=
  t.modifyActive fun p => p.moveToRow (min (p.cursor.row + n) (t.rows - 1))

/-- Right by `n` columns. -/
def cursorForward (t : Terminal) (n : Nat) : Terminal :=
  t.modifyActive fun p => p.moveToCol (min (p.cursor.col + n) (t.cols - 1))

/-- Left by `n` columns.  A pending wrap counts as the last column. -/
def cursorBackward (t : Terminal) (n : Nat) : Terminal :=
  t.modifyActive fun p => p.moveToCol (min p.cursor.col (t.cols - 1) - n)

/-- One column to the left. -/
def backspace (t : Terminal) : Terminal := t.cursorBackward 1

/-- To the next tab stop; there is one every eight columns. -/
def horizontalTab (t : Terminal) : Except Fault Terminal := do
  let stop ← coordinate ((t.cursor.col / 8 + 1) * 8)
  return t.modifyActive fun p => p.moveToCol (min stop (t.cols - 1))

/-- To the row below; under automatic new lines also to the first column. -/
def lineFeed (t : Terminal) : Terminal :=
  if t.has .autoNewLine then (t.modifyActive fun p => p.moveToCol 0).index else t.index

/-- One row up; at the top of the region the region scrolls instead. -/
def reverseIndex (t : Terminal) : Terminal :=
  if t.cursor.row = t.region.top then t.scrollDown 1 else t.cursorUp 1

/-- The rows that a position may name. -/
def addressable (t : Terminal) : Region :=
  if t.has .originMode then t.region else fullRegion t.rows

/-- To a column, counted from one. -/
def cursorColumn (t : Terminal) (col : Nat) : Terminal :=
  t.modifyActive fun p => p.moveToCol (min (col - 1) (t.cols - 1))

/-- To a row, counted from one. -/
def cursorRow (t : Terminal) (row : Nat) : Terminal :=
  let r := t.addressable
  t.modifyActive fun p => p.moveToRow (min (r.top + (row - 1)) r.bottom)

/-- To a row and a column. -/
def cursorPosition (t : Terminal) (row col : Nat) : Terminal := (t.cursorRow row).cursorColumn col

/-- Confines scrolling to some rows, counted from one, and sends the cursor home.  A region of fewer
than two rows is refused. -/
def setScrollRegion (t : Terminal) (top bottom : Nat) : Terminal :=
  let last := t.rows - 1
  let r : Region := ⟨min (top - 1) last, min (bottom - 1) last⟩
  if r.top < r.bottom then { t with region := r }.cursorPosition 1 1 else t

/-- Going down a row keeps the column. -/
@[simp] theorem col_index (t : Terminal) : t.index.cursor.col = t.cursor.col := by
  unfold index
  dsimp only
  split
  · rw [cursor_scrollUp]
  · split
    · simp [Page.moveToRow, cursor]
    · rfl

end VideoTerminal.Terminal
