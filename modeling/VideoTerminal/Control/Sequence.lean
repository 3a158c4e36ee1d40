import VideoTerminal.Control.Action

/-!
# Control sequences

A control sequence is read completely before it means anything: its private markers and intermediate
characters, its numbers and its final character.  `Action.ofSequence?` gives the meaning of those
that have one.
-/

namespace VideoTerminal

/-- A control sequence that has been read to its end. -/
structure Sequence where
  /-- Private markers and intermediate characters, in order. -/
  marks : List Char
  params : List Nat
  final : Char
  deriving DecidableEq, Repr

namespace Sequence

/-- A repeat count: the first number, and one if it is omitted or zero. -/
def count (s : Sequence) : Nat := max (s.params.headD 1) 1

/-- The number at a place, unless it is omitted or zero. -/
def positive? (s : Sequence) (i : Nat) : Option Nat := s.params[i]?.filter fun n => decide (0 < n)

end Sequence

/-- The meaning of a sequence without private markers. -/
def Action.ofPlainSequence? (s : Sequence) : Option Action :=
  let first (omitted : Nat) := s.params.headD omitted
  match s.final with
  | 'A' => some (.cursorUp s.count)
  | 'B' => some (.cursorDown s.count)
  | 'C' => some (.cursorForward s.count)
  | 'D' => some (.cursorBackward s.count)
  | 'E' => some (.cursorNextLine s.count)
  | 'F' => some (.cursorPreviousLine s.count)
  | 'G' => some (.cursorColumn (first 1))
  | '\x60' => some (.cursorColumn (first 1))
  | 'H' => some (.cursorPosition (first 1) (s.params.getD 1 1))
  | 'f' => some (.cursorPosition (first 1) (s.params.getD 1 1))
  | 'd' => some (.cursorRow (first 1))
  | 'J' => some (.eraseInDisplay (first 0))
  | 'K' => some (.eraseInLine (first 0))
  | 'L' => some (.insertLines s.count)
  | 'M' => some (.deleteLines s.count)
  | '@' => some (.insertChars s.count)
  | 'P' => some (.deleteChars s.count)
  | 'X' => some (.eraseChars s.count)
  | 'S' => some (.scrollUp s.count)
  | 'T' => some (.scrollDown s.count)
  | 'r' => some (.setScrollRegion ((s.positive? 0).getD 1) (s.positive? 1))
  | 'm' => some (.selectRendition s.params)
  | 's' => some .saveCursor
  | 'u' => some .restoreCursor
  | 'n' =>
    match s.params.head? with
    | some 5 => some .reportStatus
    | some 6 => some .reportCursor
    | _ => none
  | 'c' => some .reportAttributes
  | 'h' => some (.setStandardModes s.params true)
  | 'l' => some (.setStandardModes s.params false)
  | 'q' =>
    if s.marks.contains ' ' then some (.setCursorShape (first 0))
    else if s.marks.contains '"' then some (.protectText (first 0 == 1))
    else none
  | _ => none

/-- The meaning of a sequence, and `none` if it has none. -/
def Action.ofSequence? (s : Sequence) : Option Action :=
  match s.marks.contains '?', s.marks.contains '>' with
  | false, false => Action.ofPlainSequence? s
  | true, false =>
    if s.final = 'h' then some (.setPrivateModes s.params true)
    else if s.final = 'l' then some (.setPrivateModes s.params false)
    else none
  | false, true => if s.final = 'c' then some .reportSecondaryAttributes else none
  | true, true => none

end VideoTerminal
