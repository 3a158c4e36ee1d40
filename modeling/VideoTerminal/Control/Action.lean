import VideoTerminal.Screen.Cursor

/-!
# Actions and replies

What a program's output asks of the terminal, one action at a time, and what the terminal answers.
Numbers are those of the request; how an omitted one is completed is decided where a request is
read.
-/

namespace VideoTerminal

/-- A request to the terminal. -/
inductive Action
  | print (c : Char)
  | backspace | horizontalTab | lineFeed | carriageReturn
  | saveCursor | restoreCursor | index | nextLine | reverseIndex | reset
  | applicationKeypad (on : Bool)
  | setTitle (title : String)
  | cursorUp (n : Nat) | cursorDown (n : Nat) | cursorForward (n : Nat) | cursorBackward (n : Nat)
  /-- Down or up by some rows, and to the first column. -/
  | cursorNextLine (n : Nat) | cursorPreviousLine (n : Nat)
  | cursorColumn (col : Nat) | cursorRow (row : Nat) | cursorPosition (row col : Nat)
  | eraseInDisplay (part : Nat) | eraseInLine (part : Nat)
  | insertLines (n : Nat) | deleteLines (n : Nat)
  | insertChars (n : Nat) | deleteChars (n : Nat) | eraseChars (n : Nat)
  | scrollUp (n : Nat) | scrollDown (n : Nat)
  /-- Without a last row, the region reaches to the end of the screen. -/
  | setScrollRegion (top : Nat) (bottom : Option Nat)
  | selectRendition (params : List Nat)
  | setPrivateModes (codes : List Nat) (on : Bool)
  | setStandardModes (codes : List Nat) (on : Bool)
  | reportStatus | reportCursor | reportAttributes | reportSecondaryAttributes
  | setCursorShape (code : Nat)
  | protectText (on : Bool)
  deriving DecidableEq, Repr

/-- What a terminal answers. -/
inductive Reply
  | cursorPosition (row col : Nat)
  | operatingStatus
  | deviceAttributes
  | secondaryDeviceAttributes
  deriving DecidableEq, Repr

/-- An answer as it is sent. -/
def Reply.text : Reply → String
  | .cursorPosition row col => "\x1b[" ++ toString row ++ ";" ++ toString col ++ "R"
  | .operatingStatus => "\x1b[0n"
  | .deviceAttributes => "\x1b[?62;c"
  | .secondaryDeviceAttributes => "\x1b[>1;10;0c"

end VideoTerminal
