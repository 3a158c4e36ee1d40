import VideoTerminal.Line
import VideoTerminal.Style

/-!
# Cells and rows

A cell holds one character and its style; a row is a list of cells and remembers whether its text
goes on in the next row.  The edits below say what happens to the cells of one row; where the cursor
is and what else changes is not their concern.
-/

namespace VideoTerminal

/-- One slot of the screen. -/
structure Cell where
  char : Char := ' '
  style : Style := .empty
  deriving DecidableEq, Repr

namespace Cell

/-- An erased cell: a space that keeps the colors of a style. -/
def blank (style : Style) : Cell := ⟨' ', style.colorsOnly⟩

/-- Whether the cell fills the second column of a wide character. -/
def isWideTail (c : Cell) : Bool := c.char == wideTail

end Cell

/-- The cells of one row. -/
abbrev Cells := List Cell

namespace Cells

/-- The characters of the cells. -/
def line (cells : Cells) : Line := fun i => cells[i]?.map Cell.char

/-- The same line, for finding many slots of it. -/
theorem line_eq_ofArray (cells : Cells) :
    cells.line = Line.ofArray (cells.map Cell.char).toArray := by
  funext i
  simp [line, Line.ofArray]

/-- Whether slot `i` belongs to the character before it. -/
def isAttached (cells : Cells) (i : Nat) : Bool := cells.line.isStructural i

/-- Replaces the cells from `start` up to and without `stop`. -/
def fill (cells : Cells) (start stop : Nat) (c : Cell) : Cells :=
  cells.mapIdx fun i old => if start ≤ i ∧ i < stop then c else old

/-- Moves the cells from `col` on to the right by `n` slots and puts blanks in their place; what
leaves the row is lost. -/
def insertBlanks (cells : Cells) (col n : Nat) (blank : Cell) : Cells :=
  let k := min n (cells.length - col)
  fill (cells.take col ++ (cells.drop col).rotateRight k) col (col + k) blank

/-- Removes `n` cells from `col` on and fills the row up with blanks. -/
def deleteCells (cells : Cells) (col n : Nat) (blank : Cell) : Cells :=
  let k := min n (cells.length - col)
  fill (cells.take col ++ (cells.drop col).rotateLeft k) (cells.length - k) cells.length blank

/-- Blanks `n` cells from `col` on. -/
def eraseCells (cells : Cells) (col n : Nat) (blank : Cell) : Cells :=
  fill cells col (min (col + n) cells.length) blank

/-- The slot that leads the character to which the slots before `col` belong. -/
def leadBefore (cells : Cells) : Nat → Nat
  | 0 => 0
  | col + 1 => if isAttached cells col then leadBefore cells col else col

/-- The first slot from `i` on, among `count`, that is not attached. -/
def attachedEnd (cells : Cells) : Nat → Nat → Nat
  | 0, i => i
  | count + 1, i => if isAttached cells i then attachedEnd cells count (i + 1) else i

/-- Blanks what a write of `width` slots at `col` leaves of the characters that it covers in part:
the front of a wide character whose second half is overwritten, and the marks that lose the slot
they belong to. -/
def releaseCovered (cells : Cells) (col width : Nat) (blank : Cell) : Cells :=
  if col < cells.length then
    let front :=
      if cells.line col = some wideTail then fill cells (leadBefore cells col) col blank else cells
    let start := min (col + width) cells.length
    fill front start (attachedEnd front (cells.length - start) start) blank
  else cells

/-- Puts cells in the place of as many others from `col` on. -/
def replaceAt (cells : Cells) (col : Nat) (written : Cells) : Cells :=
  cells.take col ++ written ++ cells.drop (col + written.length)

/-- How many of the first characters of a text take the place of the first cells, one each, and
leave all other cells as they are: as long as the character, the cell and the one behind it are
printable and seven bits wide. -/
def overwritable : List Char → Cells → Nat
  | c :: text, cell :: cells =>
    if Text.isPrintable7 c && Text.isPrintable7 cell.char &&
        cells.head?.all fun next => Text.isPrintable7 next.char then
      overwritable text cells + 1
    else 0
  | _, _ => 0

/-- Rotating moves cells and keeps their number. -/
theorem length_rotateRight (cells : Cells) (n : Nat) :
    (cells.rotateRight n).length = cells.length := by
  simp only [List.rotateRight]
  split
  · rfl
  · simp

/-- Rotating cells loses none. -/
theorem length_rotateLeft (cells : Cells) (n : Nat) :
    (cells.rotateLeft n).length = cells.length := by
  simp only [List.rotateLeft]
  split
  · rfl
  · simp; omega

/-- Filling cells neither adds nor removes one. -/
@[simp] theorem length_fill (cells : Cells) (start stop : Nat) (c : Cell) :
    (fill cells start stop c).length = cells.length := by
  simp [fill]

/-- The cells from `start` up to `stop` are the new one, all others are kept. -/
theorem getElem?_fill (cells : Cells) (start stop : Nat) (c : Cell) (i : Nat) :
    (fill cells start stop c)[i]? =
      cells[i]?.map fun old => if start ≤ i ∧ i < stop then c else old := by
  simp [fill, List.getElem?_mapIdx]

/-- What is pushed out at the end makes up for the blanks. -/
@[simp] theorem length_insertBlanks (cells : Cells) (col n : Nat) (blank : Cell) :
    (insertBlanks cells col n blank).length = cells.length := by
  simp [insertBlanks, length_rotateRight]
  omega

/-- The blanks at the end make up for what is deleted. -/
@[simp] theorem length_deleteCells (cells : Cells) (col n : Nat) (blank : Cell) :
    (deleteCells cells col n blank).length = cells.length := by
  simp [deleteCells, length_rotateLeft]
  omega

@[simp] theorem length_eraseCells (cells : Cells) (col n : Nat) (blank : Cell) :
    (eraseCells cells col n blank).length = cells.length := by
  simp [eraseCells]

/-- Blanking the remains of a character keeps the row's width. -/
@[simp] theorem length_releaseCovered (cells : Cells) (col width : Nat) (blank : Cell) :
    (releaseCovered cells col width blank).length = cells.length := by
  unfold releaseCovered
  split
  · split <;> simp
  · rfl

end Cells

/-- A row of the screen or of the scrollback. -/
structure Row where
  cells : Cells
  /-- The text goes on in the next row. -/
  wrapped : Bool := false
  deriving DecidableEq, Repr

namespace Row

/-- An untouched row. -/
def new (cols : Nat) : Row := ⟨List.replicate cols {}, false⟩

/-- Cuts the row off at `cols` cells, or fills it up with untouched ones. -/
def resize (r : Row) (cols : Nat) : Row :=
  { r with cells := r.cells.take cols ++ List.replicate (cols - r.cells.length) {} }

/-- Replaces every cell and ends the line here. -/
def clear (r : Row) (blank : Cell) : Row := ⟨r.cells.map fun _ => blank, false⟩

/-- The characters of the row, without second halves of wide characters and without blanks at the
end. -/
def text (r : Row) : String :=
  let cs := (r.cells.map Cell.char).filter (· != wideTail)
  String.ofList (cs.reverse.dropWhile Text.isBlank).reverse

/-- A new row is as wide as the screen. -/
@[simp] theorem length_new (cols : Nat) : (new cols).cells.length = cols := by
  simp [new]

/-- A resized row has the width it is given. -/
@[simp] theorem length_resize (r : Row) (cols : Nat) : (r.resize cols).cells.length = cols := by
  simp [resize]; omega

@[simp] theorem length_clear (r : Row) (blank : Cell) :
    (r.clear blank).cells.length = r.cells.length := by
  simp [clear]

end Row

end VideoTerminal
