import VideoTerminal.Terminal

/-!
# Dumps

Everything about a terminal that helps to find out what went wrong, as text.
-/

namespace VideoTerminal.Dump

/-- A rule across the screen. -/
def rule (t : Terminal) : String := String.ofList (List.replicate t.cols '─') ++ "\n"

/-- The lines before the screen. -/
def header (t : Terminal) : String :=
  let c := t.cursor
  String.join [
    "=== Terminal ", toString t.cols, "x", toString t.rows, " ===\n",
    "Cursor: (", toString c.col, ", ", toString c.row, ") visible=", toString c.visible,
    " shape=", c.shape.name, "\n",
    "Title: ", t.title, "\n",
    "Alternate: ", toString t.usingAlternate, "\n",
    "Modes: ", t.modes.describe, "\n",
    "Scrollback: ", toString t.active.scrollback.size, " lines\n"]

/-- The characters of a row, with a block at the cursor if `col` is given. -/
def rowChars (cells : Cells) (col : Option Nat) : List Char :=
  cells.zipIdx.filterMap fun (c, i) =>
    if c.isWideTail then none else some (if col = some i then '█' else c.char)

/-- The line of row `y`, marked if the cursor is there. -/
def rowText (c : Cursor) (y : Nat) (row : Row) : String :=
  let here := y = c.row
  let col := if here ∧ c.visible then some c.col else none
  String.ofList ((if here then '>' else ' ') :: rowChars row.cells col) ++ "\n"

/-- The dump of a terminal. -/
def text (t : Terminal) : String :=
  header t ++ rule t
    ++ String.join (t.active.rows.zipIdx.map fun (row, y) => rowText t.cursor y row) ++ rule t

end VideoTerminal.Dump
