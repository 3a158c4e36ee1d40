import VideoTerminal.Mode

/-!
# Keys

What a program receives for a key, under the modes that it has set.  Cursor keys, editing keys and
function keys carry their modifiers as a number in the sequence; characters carry Control by
becoming a control and Alt by an ESC before them.
-/

namespace VideoTerminal

/-- The modifiers that a program can be told of. -/
structure Modifiers where
  shift : Bool := false
  control : Bool := false
  alt : Bool := false
  deriving DecidableEq, Repr

namespace Modifiers

/-- No modifier. -/
def isEmpty (m : Modifiers) : Bool := !m.shift && !m.control && !m.alt

/-- The modifiers as a set of bits. -/
def toNat (m : Modifiers) : Nat := m.shift.toNat + 2 * m.control.toNat + 4 * m.alt.toNat

/-- The number of the modifiers in a sequence. -/
def code (m : Modifiers) : Nat := 1 + m.shift.toNat + 2 * m.alt.toNat + 4 * m.control.toNat

end Modifiers

/-- The keys. -/
inductive Key
  | char (c : Char)
  | enter | backspace | tab | backTab | escape
  | up | down | right | left | home | «end»
  | pageUp | pageDown | insert | delete
  | function (n : Nat)
  /-- A key that no program is told of. -/
  | other
  deriving DecidableEq, Repr

/-- A key with its modifiers. -/
structure KeyPress where
  key : Key
  modifiers : Modifiers := {}
  /-- The key is on the numeric pad. -/
  onKeypad : Bool := false
  deriving DecidableEq, Repr

namespace KeyPress

/-- A sequence that ends in a letter: `lead` and the letter, or with modifiers their number before
it. -/
def lettered (letter : Char) (m : Modifiers) (lead : String) : String :=
  if m.isEmpty then lead ++ letter.toString
  else "\x1b[1;" ++ toString m.code ++ letter.toString

/-- A sequence of a number and a tilde. -/
def numbered (number : Nat) (m : Modifiers) : String :=
  if m.isEmpty then "\x1b[" ++ toString number ++ "~"
  else "\x1b[" ++ toString number ++ ";" ++ toString m.code ++ "~"

/-- Puts an ESC before a text if Alt is held and the program wants to be told so. -/
def withAlt (text : String) (m : Modifiers) (modes : ModeSet) : String :=
  if m.alt && modes.contains .altSendsEscape then "\x1b" ++ text else text

/-- The control of a character. -/
def controlOf? (c : Char) : Option Char :=
  if 'a' ≤ c ∧ c ≤ 'z' then some (.ofNat (c.toNat - 'a'.toNat + 1))
  else if 'A' ≤ c ∧ c ≤ 'Z' then some (.ofNat (c.toNat - 'A'.toNat + 1))
  else if ['@', '\x60', ' ', '2'].contains c then some '\x00'
  else if ['[', '3'].contains c then some '\x1b'
  else if ['\\', '4'].contains c then some '\x1c'
  else if [']', '5'].contains c then some '\x1d'
  else if ['^', '~', '6'].contains c then some '\x1e'
  else if ['_', '?', '7'].contains c then some '\x1f'
  else none

/-- The text of a character. -/
def charText (c : Char) (m : Modifiers) (modes : ModeSet) : String :=
  let typed := if m.control then (controlOf? c).getD c else c
  withAlt typed.toString m modes

/-- The text of a cursor key, which depends on the cursor key mode unless there are modifiers. -/
def cursorText (letter : Char) (m : Modifiers) (modes : ModeSet) : String :=
  lettered letter m (if modes.contains .cursorKey then "\x1bO" else "\x1b[")

/-- The text of a function key. -/
def functionText? (n : Nat) (m : Modifiers) : Option String :=
  match n with
  | 1 => some (lettered 'P' m "\x1bO")
  | 2 => some (lettered 'Q' m "\x1bO")
  | 3 => some (lettered 'R' m "\x1bO")
  | 4 => some (lettered 'S' m "\x1bO")
  | 5 => some (numbered 15 m)
  | 6 => some (numbered 17 m)
  | 7 => some (numbered 18 m)
  | 8 => some (numbered 19 m)
  | 9 => some (numbered 20 m)
  | 10 => some (numbered 21 m)
  | 11 => some (numbered 23 m)
  | 12 => some (numbered 24 m)
  | _ => none

/-- The letter of a key of the numeric pad. -/
def keypadLetter? : Key → Option Char
  | .enter => some 'M'
  | .char c =>
    if c.isDigit then some (.ofNat ('p'.toNat + (c.toNat - '0'.toNat)))
    else
      [('*', 'j'), ('+', 'k'), (',', 'l'), ('-', 'm'), ('.', 'n'), ('/', 'o'), ('=', 'X')].lookup c
  | _ => none

/-- The text of a key as such, wherever it is. -/
def plainText? (key : Key) (m : Modifiers) (modes : ModeSet) : Option String :=
  match key with
  | .char c => some (charText c m modes)
  | .enter => some (withAlt (if modes.contains .autoNewLine then "\r\n" else "\r") m modes)
  | .backspace => some (withAlt "\x7f" m modes)
  | .tab => some (if m.shift then "\x1b[Z" else "\t")
  | .backTab => some "\x1b[Z"
  | .escape => some "\x1b"
  | .up => some (cursorText 'A' m modes)
  | .down => some (cursorText 'B' m modes)
  | .right => some (cursorText 'C' m modes)
  | .left => some (cursorText 'D' m modes)
  | .home => some (cursorText 'H' m modes)
  | .end => some (cursorText 'F' m modes)
  | .pageUp => some (numbered 5 m)
  | .pageDown => some (numbered 6 m)
  | .insert => some (numbered 2 m)
  | .delete => some (numbered 3 m)
  | .function n => functionText? n m
  | .other => none

/-- What a program receives for a key, if anything. -/
def text? (k : KeyPress) (modes : ModeSet) : Option String :=
  let letter := if k.onKeypad && modes.contains .keypad then keypadLetter? k.key else none
  match letter with
  | some letter => some ("\x1bO" ++ letter.toString)
  | none => plainText? k.key k.modifiers modes

end KeyPress

end VideoTerminal
