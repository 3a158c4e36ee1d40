import VideoTerminal.Control.Sequence
import VideoTerminal.Text.Class

/-!
# Reading a program's output

The parser takes one character at a time and returns what it asks of the terminal.  It knows nothing
of the terminal: what a sequence does can not change how the next one is read.

A control of the first thirty-two acts at once, even in the middle of a sequence; only inside a
control string it does not.
-/

namespace VideoTerminal

/-- What the parser is in the middle of. -/
inductive ParserState
  | ground
  | escape | escapeIntermediate
  | sequenceEntry | sequenceParam | sequenceIntermediate
  | controlString
  /-- An ESC has been read inside a control string. -/
  | stringEscape
  deriving DecidableEq, Repr

/-- What the parser has read of a sequence or string. -/
structure Parser where
  state : ParserState := .ground
  params : List Nat := []
  marks : List Char := []
  /-- The number that is being read. -/
  number : Option Nat := none
  payload : String := ""
  /-- The string is a command to the operating system; others are read and ignored. -/
  isCommand : Bool := true
  deriving DecidableEq, Repr

/-- The meaning of a command to the operating system: 0, 1 and 2 set the title. -/
def Action.ofCommand? (payload : String) : Option Action :=
  let cs := payload.toList
  match cs.dropWhile (· != ';') with
  | _ :: text =>
    if ["0", "1", "2"].contains (String.ofList (cs.takeWhile (· != ';'))) then
      some (.setTitle (String.ofList text))
    else none
  | [] => none

namespace Parser

/-- Numbers kept of one sequence. -/
def maxParams : Nat := 32

/-- Bytes from which on a control string does not grow. -/
def maxPayload : Nat := 4096

/-- The greatest number; greater ones count as this. -/
def maxNumber : Nat := 65535

/-- Characters that only qualify what follows. -/
def isIntermediate (c : Char) : Bool := 0x20 ≤ c.toNat && c.toNat ≤ 0x2F

/-- Characters that end a control sequence. -/
def isFinal (c : Char) : Bool := 0x40 ≤ c.toNat && c.toNat ≤ 0x7E

/-- At the start of an escape sequence. -/
def enterEscape (p : Parser) : Parser :=
  { p with state := .escape, params := [], marks := [], number := none }

/-- At the start of a control string. -/
def enterString (p : Parser) (isCommand : Bool) : Parser :=
  { p with state := .controlString, payload := "", isCommand := isCommand }

/-- Ends the number that is being read; an omitted one is zero. -/
def pushParam (p : Parser) : Parser :=
  { p with
    params :=
      if p.params.length < maxParams then p.params ++ [p.number.getD 0] else p.params
    number := none }

/-- Ends the number that is being read, if there is one. -/
def endNumber (p : Parser) : Parser := if p.number.isSome then p.pushParam else p

/-- Adds a digit to the number that is being read. -/
def pushDigit (p : Parser) (c : Char) : Parser :=
  let tens := min (p.number.getD 0 * 10) maxNumber
  { p with number := some (min (tens + (c.toNat - '0'.toNat)) maxNumber) }

/-- Ends a control sequence. -/
def dispatch (p : Parser) (final : Char) : Parser × List Action :=
  ({ p with state := .ground }, (Action.ofSequence? ⟨p.marks, p.params, final⟩).toList)

/-- What the control string asks for. -/
def stringActions (p : Parser) : List Action :=
  if p.isCommand then (Action.ofCommand? p.payload).toList else []

/-- A control of the first thirty-two, outside a control string. -/
def stepControl (p : Parser) (c : Char) : Parser × List Action :=
  match c with
  | '\x1b' => (p.enterEscape, [])
  | '\x08' => (p, [.backspace])
  | '\t' => (p, [.horizontalTab])
  | '\n' => (p, [.lineFeed])
  | '\x0b' => (p, [.lineFeed])
  | '\x0c' => (p, [.lineFeed])
  | '\r' => (p, [.carriageReturn])
  | '\x18' => ({ p with state := .ground }, [])
  | '\x1a' => ({ p with state := .ground }, [])
  | _ => (p, [])

/-- The character after ESC. -/
def stepEscape (p : Parser) (c : Char) : Parser × List Action :=
  let ground := { p with state := .ground }
  match c with
  | '[' => ({ p with state := .sequenceEntry }, [])
  | ']' => (p.enterString true, [])
  | 'P' => (p.enterString false, [])
  | 'X' => (p.enterString false, [])
  | '^' => (p.enterString false, [])
  | '_' => (p.enterString false, [])
  | '7' => (ground, [.saveCursor])
  | '8' => (ground, [.restoreCursor])
  | 'D' => (ground, [.index])
  | 'E' => (ground, [.nextLine])
  | 'M' => (ground, [.reverseIndex])
  | 'c' => (ground, [.reset])
  | '=' => (ground, [.applicationKeypad true])
  | '>' => (ground, [.applicationKeypad false])
  | c =>
    if isIntermediate c then
      ({ p with state := .escapeIntermediate, marks := p.marks ++ [c] }, [])
    else (ground, [])

/-- A character of an escape sequence with intermediates; such sequences are read and ignored. -/
def stepEscapeIntermediate (p : Parser) (c : Char) : Parser × List Action :=
  if isIntermediate c then ({ p with marks := p.marks ++ [c] }, [])
  else ({ p with state := .ground }, [])

/-- A character among the numbers of a control sequence; a colon separates them like a semicolon. -/
def stepParam (p : Parser) (c : Char) : Parser × List Action :=
  if c.isDigit then (p.pushDigit c, [])
  else if c = ';' ∨ c = ':' then (p.pushParam, [])
  else if isIntermediate c then
    ({ p.endNumber with state := .sequenceIntermediate, marks := p.marks ++ [c] }, [])
  else if isFinal c then p.endNumber.dispatch c
  else ({ p with state := .ground }, [])

/-- The first characters of a control sequence. -/
def stepEntry (p : Parser) (c : Char) : Parser × List Action :=
  if c.isDigit || c == ';' || c == ':' then { p with state := .sequenceParam }.stepParam c
  else if ['?', '>', '!', '=', '<'].contains c then ({ p with marks := p.marks ++ [c] }, [])
  else if isIntermediate c then
    ({ p with state := .sequenceIntermediate, marks := p.marks ++ [c] }, [])
  else if isFinal c then p.dispatch c
  else ({ p with state := .ground }, [])

/-- A character behind an intermediate of a control sequence. -/
def stepIntermediate (p : Parser) (c : Char) : Parser × List Action :=
  if isIntermediate c then ({ p with marks := p.marks ++ [c] }, [])
  else if isFinal c then p.dispatch c
  else ({ p with state := .ground }, [])

/-- A character of a control string.  BEL and the string terminator end it. -/
def stepString (p : Parser) (c : Char) : Parser × List Action :=
  if c = '\x07' ∨ c = '\u009c' then ({ p with state := .ground }, p.stringActions)
  else if c = '\x1b' then ({ p with state := .stringEscape }, [])
  else if Text.isC0 c then (p, [])
  else if p.payload.utf8ByteSize < maxPayload then ({ p with payload := p.payload.push c }, [])
  else (p, [])

/-- The character after an ESC inside a control string.  The string ends in any case; unless it is
ended properly, the ESC begins the next sequence. -/
def stepStringEscape (p : Parser) (c : Char) : Parser × List Action :=
  if c = '\\' then ({ p with state := .ground }, p.stringActions)
  else
    let (q, actions) := p.enterEscape.stepEscape c
    (q, p.stringActions ++ actions)

/-- Reads one character. -/
def step (p : Parser) (c : Char) : Parser × List Action :=
  match p.state with
  | .controlString => p.stepString c
  | .stringEscape => p.stepStringEscape c
  | state =>
    if Text.isC0 c then p.stepControl c
    else
      match state with
      | .escape => p.stepEscape c
      | .escapeIntermediate => p.stepEscapeIntermediate c
      | .sequenceEntry => p.stepEntry c
      | .sequenceParam => p.stepParam c
      | .sequenceIntermediate => p.stepIntermediate c
      | _ => (p, if c = '\x7f' then [] else [.print c])

end Parser

end VideoTerminal
