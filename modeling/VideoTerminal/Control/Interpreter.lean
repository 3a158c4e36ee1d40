import VideoTerminal.Control.Parser
import VideoTerminal.Style.Rendition
import VideoTerminal.Terminal.Modes
import VideoTerminal.Terminal.Print

/-!
# Interpreting a program's output

A parser and the terminal that carries out what it reads.  Feeding a character yields the replies
that the program is to receive.
-/

namespace VideoTerminal

namespace Terminal

/-- The cursor's place as a program counts it: from one, and under origin mode from the top of the
scroll region. -/
def cursorReport (t : Terminal) : Except Fault Reply := do
  let top := if t.has .originMode then t.region.top else 0
  return .cursorPosition (← coordinate (t.cursor.row - top + 1))
    (← coordinate (t.visualCursorCol + 1))

/-- Carries out an action that can not fail and does not ask for a reply. -/
def performSimple (t : Terminal) : Action → Terminal
  | .backspace => t.backspace
  | .lineFeed => t.lineFeed
  | .carriageReturn => t.carriageReturn
  | .saveCursor => t.saveCursor
  | .restoreCursor => t.restoreCursor
  | .index => t.index
  | .nextLine => t.carriageReturn.index
  | .reverseIndex => t.reverseIndex
  | .reset => t.reset
  | .applicationKeypad on => t.setMode .keypad on
  | .setTitle title => { t with title := title }
  | .cursorUp n => t.cursorUp n
  | .cursorDown n => t.cursorDown n
  | .cursorForward n => t.cursorForward n
  | .cursorBackward n => t.cursorBackward n
  | .cursorNextLine n => (t.cursorDown n).carriageReturn
  | .cursorPreviousLine n => (t.cursorUp n).carriageReturn
  | .cursorColumn col => t.cursorColumn col
  | .cursorRow row => t.cursorRow row
  | .cursorPosition row col => t.cursorPosition row col
  | .eraseInDisplay part => t.eraseInDisplay part
  | .eraseInLine part => t.eraseInLine part
  | .insertChars n => t.insertChars n
  | .deleteChars n => t.deleteChars n
  | .eraseChars n => t.eraseChars n
  | .scrollUp n => t.scrollUp n
  | .scrollDown n => t.scrollDown n
  | .setScrollRegion top bottom => t.setScrollRegion top (bottom.getD t.rows)
  | .selectRendition params => { t with style := t.style.select params }
  | .setPrivateModes codes on => codes.foldl (fun t code => t.setPrivateMode on code) t
  | .setStandardModes codes on => codes.foldl (fun t code => t.setStandardMode on code) t
  | .setCursorShape code => t.modifyCursor fun c => { c with shape := .ofCode code }
  | .protectText on => { t with style := t.style.setAttributes .protect on }
  | .print _ | .horizontalTab | .insertLines _ | .deleteLines _ | .reportStatus | .reportCursor
  | .reportAttributes | .reportSecondaryAttributes => t

/-- Carries out an action. -/
def perform (t : Terminal) : Action → Except Fault (Terminal × List Reply)
  | .print c => return (← t.putChar c, [])
  | .horizontalTab => return (← t.horizontalTab, [])
  | .insertLines n => return (← t.insertLines n, [])
  | .deleteLines n => return (← t.deleteLines n, [])
  | .reportStatus => return (t, [.operatingStatus])
  | .reportCursor => return (t, [← t.cursorReport])
  | .reportAttributes => return (t, [.deviceAttributes])
  | .reportSecondaryAttributes => return (t, [.secondaryDeviceAttributes])
  | action => return (t.performSimple action, [])

section Perform

variable (t : Terminal)

/-- Printing may fail, and is not answered. -/
theorem perform_print (c : Char) :
    t.perform (.print c) = t.putChar c >>= fun t => pure (t, []) := rfl

/-- A tab may fail, and is not answered. -/
theorem perform_horizontalTab :
    t.perform .horizontalTab = t.horizontalTab >>= fun t => pure (t, []) := rfl

/-- Inserting lines may fail, and is not answered. -/
theorem perform_insertLines (n : Nat) :
    t.perform (.insertLines n) = t.insertLines n >>= fun t => pure (t, []) := rfl

theorem perform_deleteLines (n : Nat) :
    t.perform (.deleteLines n) = t.deleteLines n >>= fun t => pure (t, []) := rfl

/-- A report is an answer, and leaves the terminal as it is. -/
theorem perform_reportCursor :
    t.perform .reportCursor = t.cursorReport >>= fun reply => pure (t, [reply]) := rfl

end Perform

/-- Carries out actions in order. -/
def performAll (t : Terminal) : List Action → Except Fault (Terminal × List Reply)
  | [] => return (t, [])
  | action :: rest => do
    let (t, replies) ← t.perform action
    let (t, more) ← t.performAll rest
    return (t, replies ++ more)

end Terminal

/-- A parser and its terminal. -/
structure Interpreter where
  parser : Parser := {}
  terminal : Terminal
  deriving DecidableEq

namespace Interpreter

/-- Interprets one character. -/
def feed (i : Interpreter) (c : Char) : Except Fault (Interpreter × List Reply) := do
  let (parser, actions) := i.parser.step c
  let (terminal, replies) ← i.terminal.performAll actions
  return (⟨parser, terminal⟩, replies)

/-- Interprets one more character of a text; the replies so far come first. -/
def feedNext (sofar : Interpreter × List Reply) (c : Char) :
    Except Fault (Interpreter × List Reply) := do
  let (i, replies) ← sofar.1.feed c
  return (i, sofar.2 ++ replies)

/-- Interprets a text.  Between sequences, what comes in front of the first control is printed as
one run. -/
def feedText (i : Interpreter) (text : List Char) : Except Fault (Interpreter × List Reply) :=
  if i.parser.state = .ground then do
    let t ← i.terminal.putText (text.takeWhile fun c => !Text.isControl7 c)
    (text.dropWhile fun c => !Text.isControl7 c).foldlM feedNext ({ i with terminal := t }, [])
  else text.foldlM feedNext (i, [])

end Interpreter

end VideoTerminal
