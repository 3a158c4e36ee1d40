import VideoTerminal.Terminal.Edit

/-!
# Printing

A character goes into the slot of the cursor, a wide one into two slots.  A character that belongs
to the one before it is attached to it: it takes a slot of its own behind that character, and in
front of the second half of a wide one.  At the right margin the text goes on in the next row, and a
character that still receives a mark is moved there whole.

Printing is the only operation that needs the cell under the cursor to exist; on a screen without
rows it is a fault.  So is a character that would end beyond the greatest coordinate.
-/

namespace VideoTerminal.Terminal

/-- The character to which the next one may belong: the one before the cursor, seen through the
second half of a wide one. -/
def previousScalar? (t : Terminal) : Option Char :=
  t.active.rows[t.cursor.row]?.bind fun row =>
    let line := row.cells.line
    let col := min t.cursor.col row.cells.length
    match line.before? col with
    | some c => if c == wideTail then line.before? (col - 1) else some c
    | none => none

/-- Blanks what a write at `col` covers in part. -/
def releaseCovered (t : Terminal) (row col width : Nat) : Except Fault Terminal :=
  if row < t.active.rows.length then
    .ok (t.modifyActive fun p => p.modifyRow row fun r =>
      { r with cells := Cells.releaseCovered r.cells col width t.blank })
  else .error (.noRow row)

/-- Places an attached character at the cursor, which stands before the right margin. -/
def attachHere (t : Terminal) (c : Char) : Except Fault Terminal :=
  let row := t.cursor.row
  let col := t.cursor.col
  match t.active.rows[row]? with
  | none => .error (.noRow row)
  | some r =>
    if col < r.cells.length then
      let cells := r.cells
      let written :=
        match if col = 0 then none else cells[col - 1]? with
        | some last =>
          if last.isWideTail then (cells.set (col - 1) ⟨c, last.style⟩).set col last
          else cells.set col ⟨c, last.style⟩
        | none => cells.set col ⟨c, t.style⟩
      .ok (t.modifyActive fun p =>
        ((p.modifyRow row fun r => { r with cells := written }).markDirty row).moveToCol (col + 1))
    else .error (.noCell row col)

/-- Where the last character of a row of cells starts. -/
def lastClusterStart (cells : Cells) : Nat → Nat
  | 0 => 0
  | i + 1 =>
    if cells.line (i + 1) = some wideTail || Cells.isAttached cells (i + 1) then
      lastClusterStart cells i
    else i + 1

/-- Moves the character that ends the cursor's row to the start of the next row; `none` if it fills
the whole row. -/
def wrapLastCluster (t : Terminal) : Except Fault (Option Terminal) := do
  let row := t.cursor.row
  match t.active.rows[row]? with
  | none => .error (.noRow row)
  | some r =>
    let stop := min t.cols r.cells.length
    let start := lastClusterStart r.cells (stop - 1)
    if start = 0 then return none
    else
      let moved := (r.cells.take stop).drop start
      let emptied := t.modifyActive fun p =>
        ((p.modifyRow row fun r => ⟨Cells.fill r.cells start stop t.blank, true⟩).markDirty
          row).moveToCol 0
      let below := emptied.index
      let target := below.cursor.row
      let released ← below.releaseCovered target 0 moved.length
      return some (released.modifyActive fun p =>
        ((p.modifyRow target fun r =>
          { r with
            cells := moved.take r.cells.length ++ r.cells.drop moved.length }).markDirty
          target).moveToCol moved.length)

/-- Attaches a character to the one before the cursor.  Behind the last column that character is
first moved to the next row, if the terminal wraps; otherwise the attached one is dropped. -/
def attach (t : Terminal) (c : Char) : Except Fault Terminal :=
  if t.active.rows.length ≤ t.cursor.row then .error (.noRow t.cursor.row)
  else if t.cols ≤ t.cursor.col then
    if t.has .autoWrap then do
      match ← t.wrapLastCluster with
      | some wrapped => wrapped.attachHere c
      | none => return t
    else .ok t
  else t.attachHere c

/-- Goes on in the next row, and remembers that the text does. -/
def wrapRow (t : Terminal) : Except Fault Terminal :=
  if t.cursor.row < t.active.rows.length then
    .ok (t.modifyActive fun p =>
      (p.modifyRow p.cursor.row fun r => { r with wrapped := true }).moveToCol 0).index
  else .error (.noRow t.cursor.row)

/-- Makes room for a character of `width` columns that does not fit before the right margin: on the
next row if the terminal wraps, else in the last columns. -/
def makeRoom (t : Terminal) (width : Nat) : Except Fault Terminal := do
  let stop ← coordinate (t.cursor.col + width)
  if t.cols < stop then
    if t.has .autoWrap then t.wrapRow
    else return t.modifyActive fun p => p.moveToCol (t.cols - width)
  else return t

/-- Writes a character of one or two columns into the cells at the cursor. -/
def writeHere (t : Terminal) (c : Char) (width : Nat) : Except Fault Terminal :=
  let row := t.cursor.row
  let col := t.cursor.col
  match t.active.rows[row]? with
  | none => .error (.noRow row)
  | some r =>
    if r.cells.length ≤ col then .error (.noCell row col)
    else if width = 2 ∧ r.cells.length ≤ col + 1 then .error (.noCell row (col + 1))
    else
      let front := r.cells.set col ⟨c, t.style⟩
      let cells := if width = 2 then front.set (col + 1) ⟨wideTail, t.style⟩ else front
      .ok (t.modifyActive fun p =>
        ((p.modifyRow row fun r => { r with cells := cells }).markDirty row).moveToCol (col + width))

/-- Prints a character that begins a new one, in `width` columns.  On a narrower screen it is
dropped. -/
def putLead (t : Terminal) (c : Char) (width : Nat) : Except Fault Terminal :=
  if t.cols < width then .ok t
  else do
    let roomy ← t.makeRoom width
    let shifted := if roomy.has .insertMode then roomy.insertChars width else roomy
    let released ← shifted.releaseCovered shifted.cursor.row shifted.cursor.col width
    released.writeHere c width

/-- Prints a character.  Controls are dropped, and nothing is drawn in more than two columns. -/
def putChar (t : Terminal) (c : Char) : Except Fault Terminal :=
  match Text.width? c with
  | none => .ok t
  | some w =>
    if w = 0 ∨ extendsPrevious t.previousScalar? c then t.attach c
    else t.putLead c (min w 2)

/-- What printing comes to depends on the columns that the character is drawn in. -/
theorem putChar_eq (t : Terminal) (c : Char) :
    t.putChar c = (Text.columns? c).elim (.ok t) fun w =>
      if w = 0 ∨ extendsPrevious t.previousScalar? c then t.attach c else t.putLead c w := by
  unfold putChar Text.columns?
  cases Text.width? c with
  | none => rfl
  | some w =>
      have hzero : (min w 2 = 0) = (w = 0) := propext (by omega)
      simp only [Option.map_some, Option.elim_some, hzero]

/-- How many of the first characters of a text only take the place of cells in the cursor's row. -/
def overwritable (t : Terminal) (text : List Char) : Nat :=
  if t.has .insertMode then 0
  else
    t.active.rows[t.cursor.row]?.elim 0 fun r =>
      Cells.overwritable (text.take (min t.cols maxCoordinate - t.cursor.col))
        (r.cells.drop t.cursor.col)

/-- Puts characters in the place of the cells at the cursor. -/
def overwrite (t : Terminal) (text : List Char) : Terminal :=
  if text.isEmpty then t
  else
    let row := t.cursor.row
    let col := t.cursor.col
    t.modifyActive fun p =>
      ((p.modifyRow row fun r =>
        { r with
          cells := Cells.replaceAt r.cells col (text.map fun c => ⟨c, t.style⟩) }).markDirty
        row).moveToCol (col + text.length)

/-- Prints a run of characters.  Those that only take the place of cells are written at once, and
nothing else comes of it than of printing each. -/
def putText (t : Terminal) (text : List Char) : Except Fault Terminal :=
  let n := t.overwritable text
  (text.drop n).foldlM putChar (t.overwrite (text.take n))

end VideoTerminal.Terminal
