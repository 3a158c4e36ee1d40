import VideoTerminal.Style

/-!
# Cursors

Where the next character goes.  A column equal to the width of the screen means that a character was
printed in the last column and the wrap to the next row is still pending.
-/

namespace VideoTerminal

/-- How the cursor is drawn. -/
inductive CursorShape
  | standard | blinkingBlock | steadyBlock | blinkingUnderline | steadyUnderline | blinkingBar
  | steadyBar
  deriving DecidableEq, Repr

namespace CursorShape

/-- The printed name of a shape. -/
def name : CursorShape → String
  | .standard => "Default"
  | .blinkingBlock => "BlinkingBlock"
  | .steadyBlock => "SteadyBlock"
  | .blinkingUnderline => "BlinkingUnderline"
  | .steadyUnderline => "SteadyUnderline"
  | .blinkingBar => "BlinkingBar"
  | .steadyBar => "SteadyBar"

/-- The shape of a number. -/
def ofCode : Nat → CursorShape
  | 1 => .blinkingBlock
  | 2 => .steadyBlock
  | 3 => .blinkingUnderline
  | 4 => .steadyUnderline
  | 5 => .blinkingBar
  | 6 => .steadyBar
  | _ => .standard

end CursorShape

/-- What is put aside when a cursor is saved. -/
structure SavedCursor where
  col : Nat
  row : Nat
  style : Style
  deriving DecidableEq, Repr

/-- A cursor and what was last saved of it. -/
structure Cursor where
  col : Nat := 0
  row : Nat := 0
  visible : Bool := true
  shape : CursorShape := .standard
  saved : Option SavedCursor := none
  deriving DecidableEq, Repr

namespace Cursor

/-- Moves a cursor, and what was saved of it, back onto a screen of the given size. -/
def clamp (c : Cursor) (cols rows : Nat) : Cursor :=
  { c with
    col := min c.col (cols - 1)
    row := min c.row (rows - 1)
    saved := c.saved.map fun s =>
      { s with col := min s.col (cols - 1), row := min s.row (rows - 1) } }

end Cursor

end VideoTerminal
