import VideoTerminal.Terminal.Motion

/-!
# Editing and erasing

Cells of the cursor's row are inserted, removed or blanked, and parts of the screen erased.  Blank
cells have the colors of the style in force.
-/

namespace VideoTerminal.Terminal

/-- Changes the cells of the cursor's row, unless the cursor stands behind them. -/
def editCursorRow (t : Terminal) (edit : Cells → Nat → Cells) : Terminal :=
  t.modifyActive fun p =>
    match p.rows[p.cursor.row]? with
    | some row =>
      if p.cursor.col < row.cells.length then
        p.editRow p.cursor.row fun r => { r with cells := edit r.cells p.cursor.col }
      else p
    | none => p

/-- Moves the cells from the cursor on to the right by `n` slots. -/
def insertChars (t : Terminal) (n : Nat) : Terminal :=
  t.editCursorRow fun cells col => Cells.insertBlanks cells col n t.blank

/-- Removes `n` cells from the cursor on. -/
def deleteChars (t : Terminal) (n : Nat) : Terminal :=
  t.editCursorRow fun cells col => Cells.deleteCells cells col n t.blank

/-- Blanks `n` cells from the cursor on. -/
def eraseChars (t : Terminal) (n : Nat) : Terminal :=
  t.editCursorRow fun cells col => Cells.eraseCells cells col n t.blank

/-- Blanks the cursor's row: 0 from the cursor on, 1 up to the cursor, 2 the whole row.  Unless the
end of the row stays, it no longer goes on in the next. -/
def eraseInLine (t : Terminal) (part : Nat) : Terminal :=
  t.modifyActive fun p =>
    let col := p.cursor.col
    let erase (first : Cells → Nat) (last : Cells → Nat) (wrapped : Bool → Bool) : Page :=
      p.editRow p.cursor.row fun r =>
        ⟨Cells.fill r.cells (first r.cells) (last r.cells) t.blank, wrapped r.wrapped⟩
    match part with
    | 0 => erase (fun cells => min col cells.length) List.length fun _ => false
    | 1 => erase (fun _ => 0) (fun cells => min (col + 1) cells.length) id
    | 2 => erase (fun _ => 0) List.length fun _ => false
    | _ => p

/-- Blanks the screen: 0 from the cursor on, 1 up to the cursor, 2 all of it, 3 all of it and the
history. -/
def eraseInDisplay (t : Terminal) (part : Nat) : Terminal :=
  match part with
  | 0 =>
    (t.eraseInLine 0).modifyActive fun p => p.clearRows (p.cursor.row + 1) t.rows t.blank
  | 1 => (t.eraseInLine 1).modifyActive fun p => p.clearRows 0 p.cursor.row t.blank
  | 2 => t.modifyActive fun p => p.clearRows 0 t.rows t.blank
  | 3 => t.modifyActive fun p => { p.clearRows 0 t.rows t.blank with scrollback := #[] }
  | _ => t

/-- Blanks the screen and sends the cursor home. -/
def clearScreen (t : Terminal) : Terminal := (t.eraseInDisplay 2).cursorPosition 1 1

/-- Editing the cursor's row leaves the cursor where it is. -/
@[simp] theorem cursor_editCursorRow (t : Terminal) (edit : Cells → Nat → Cells) :
    (t.editCursorRow edit).cursor = t.cursor := by
  unfold editCursorRow
  rw [cursor_modifyActive]
  split
  · split
    · exact Page.cursor_editRow ..
    · rfl
  · rfl

/-- Blanks are inserted behind the cursor, which stays. -/
@[simp] theorem cursor_insertChars (t : Terminal) (n : Nat) :
    (t.insertChars n).cursor = t.cursor :=
  t.cursor_editCursorRow _

end VideoTerminal.Terminal
