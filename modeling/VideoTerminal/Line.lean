import VideoTerminal.Text.Width

/-!
# Slots and columns

A line is a row of slots with one character each.  Some slots take no column of their own: the
second half of a wide character, marks, joiners and the like.  These are *structural*; every other
slot leads a character that is one column wide, or two when the second half of a wide character
closes it.  `visualColumn` goes from slots to columns and `slotAt` back.
-/

namespace VideoTerminal

/-- Fills the second column of a wide character. -/
def wideTail : Char := '\uE000'

/-- Ties two pictographs together. -/
def zeroWidthJoiner : Char := '\u200D'

/-- Whether `c` belongs to the character before it, whose last slot holds `previous`.  The signs for
male and female do so only behind a joiner. -/
def extendsPrevious (previous : Option Char) (c : Char) : Bool :=
  if c == wideTail || c == '\uFE0E' || c == '\uFE0F' || c == zeroWidthJoiner then true
  else if 0x1F3FB ≤ c.toNat ∧ c.toNat ≤ 0x1F3FF then true
  else if c == '\u2640' || c == '\u2642' then previous == some zeroWidthJoiner
  else Text.width? c == some 0

/-- The character in each slot, and `none` past the end. -/
abbrev Line := Nat → Option Char

namespace Line

/-- The line of a list of characters. -/
def ofList (cs : List Char) : Line := fun i => cs[i]?

/-- The line of an array of characters, in which each slot is found at once. -/
def ofArray (cs : Array Char) : Line := fun i => cs[i]?

/-- The character in the slot before `col`. -/
def before? (line : Line) : Nat → Option Char
  | 0 => none
  | col + 1 => line col

/-- Whether the slot takes no column of its own. -/
def isStructural (line : Line) (col : Nat) : Bool :=
  match line col with
  | some c => extendsPrevious (line.before? col) c
  | none => false

/-- Looks for the second half of a wide character, past structural slots only, in `count` slots from
`next` on: two columns if it is found, one if not. -/
def closingWidth (line : Line) : Nat → Nat → Nat
  | 0, _ => 1
  | count + 1, next =>
    if line next = some wideTail then 2
    else if line.isStructural next then line.closingWidth count (next + 1)
    else 1

/-- Columns of the character that slot `col` leads, in a line of `width` slots. -/
def characterWidth (line : Line) (col width : Nat) : Nat :=
  line.closingWidth (width - (col + 1)) (col + 1)

/-- Columns that slot `col` adds to the line. -/
def slotWidth (line : Line) (width col : Nat) : Nat :=
  if line.isStructural col then 0 else line.characterWidth col width

/-- Columns that the first slots add to the line. -/
def columnsBefore (line : Line) (width : Nat) : Nat → Nat
  | 0 => 0
  | col + 1 => line.columnsBefore width col + line.slotWidth width col

/-- The column at which slot `col` starts. -/
def visualColumn (line : Line) (col width : Nat) : Nat := line.columnsBefore width (min col width)

/-- Looks for the slot whose character covers column `target`, in `count` slots from `col` on, of
which the first starts at column `visual`. -/
def seek (line : Line) (width target : Nat) : Nat → Nat → Nat → Nat
  | 0, _, _ => width
  | count + 1, col, visual =>
    if line.isStructural col then line.seek width target count (col + 1) visual
    else
      let next := visual + line.characterWidth col width
      if target < next then col else line.seek width target count (col + 1) next

/-- The slot whose character covers a column; `width` past the end of the line. -/
def slotAt (line : Line) (target width : Nat) : Nat := line.seek width target width 0 0

/-- A character is closed as a narrow or as a wide one. -/
theorem closingWidth_eq_one_or_two (line : Line) (count next : Nat) :
    line.closingWidth count next = 1 ∨ line.closingWidth count next = 2 := by
  induction count generalizing next with
  | zero => exact .inl rfl
  | succ count ih =>
    unfold closingWidth
    split
    · exact .inr rfl
    · split
      · exact ih (next + 1)
      · exact .inl rfl

/-- Every character takes one column or two. -/
theorem characterWidth_eq_one_or_two (line : Line) (col width : Nat) :
    line.characterWidth col width = 1 ∨ line.characterWidth col width = 2 :=
  line.closingWidth_eq_one_or_two _ _

/-- One more slot adds its own width. -/
theorem visualColumn_succ (line : Line) {col width : Nat} (h : col < width) :
    line.visualColumn (col + 1) width = line.visualColumn col width + line.slotWidth width col := by
  have h1 : min (col + 1) width = col + 1 := by omega
  have h2 : min col width = col := by omega
  simp [visualColumn, h1, h2, columnsBefore]

end Line

end VideoTerminal
