import VideoTerminal.Control.Interpreter

/-!
# Operations on a terminal

All that can be done to a terminal from outside: carrying out an action with any numbers, feeding
text to a parser that may have read anything before, printing text as it is, switching a mode,
choosing a style, changing the size, and asking what is to be drawn.  `Terminal.run` does one
operation after another, and a state is reachable if it is what some run of a fresh terminal leaves.

Numbers that come with an operation are arbitrary.  Only those of a change of size must be
`Addressable`, so that no column is counted beyond the greatest coordinate.
-/

namespace VideoTerminal

/-- Something that can be done to a terminal. -/
inductive Operation
  /-- Carries out one action. -/
  | perform (action : Action)
  /-- Feeds a text to a parser, whatever that has read before. -/
  | feed (parser : Parser) (text : List Char)
  /-- Prints a text, controls and all. -/
  | putText (text : List Char)
  | setMode (m : Mode) (on : Bool)
  | setStyle (style : Style)
  | clearScreen
  | resize (cols rows : Nat)
  /-- The page that is shown has been drawn. -/
  | clearDirty
  /-- Asks whether anything is to be drawn. -/
  | takeRenderRequest
  deriving DecidableEq, Repr

/-- Sizes on which no operation counts beyond the greatest coordinate: a tab stop lies at most eight
columns behind the last one. -/
structure Addressable (cols rows : Nat) : Prop where
  rows_pos : 0 < rows
  rows_le : rows ≤ maxCoordinate
  cols_le : cols + 8 ≤ maxCoordinate

instance (cols rows : Nat) : Decidable (Addressable cols rows) :=
  decidable_of_iff (0 < rows ∧ rows ≤ maxCoordinate ∧ cols + 8 ≤ maxCoordinate)
    ⟨fun ⟨h1, h2, h3⟩ => ⟨h1, h2, h3⟩, fun ⟨h1, h2, h3⟩ => ⟨h1, h2, h3⟩⟩

namespace Operation

/-- Whether a size that the operation asks for is addressable. -/
def Admissible : Operation → Prop
  | .resize cols rows => Addressable cols rows
  | _ => True

instance : DecidablePred Admissible := fun op => by
  unfold Admissible; split <;> infer_instance

/-- The size after an operation. -/
def sizeAfter (size : Nat × Nat) : Operation → Nat × Nat
  | .resize cols rows => (cols, rows)
  | _ => size

end Operation

namespace Terminal

/-- Does one operation; replies and answers are left aside. -/
def operate (t : Terminal) : Operation → Except Fault Terminal
  | .perform action => return (← t.perform action).1
  | .feed parser text => return (← (Interpreter.mk parser t).feedText text).1.terminal
  | .putText text => t.putText text
  | .setMode m on => .ok (t.setMode m on)
  | .setStyle style => .ok { t with style := style }
  | .clearScreen => .ok t.clearScreen
  | .resize cols rows => .ok (t.resize cols rows)
  | .clearDirty => .ok (t.modifyActive Page.clearDirty)
  | .takeRenderRequest => .ok t.takeRenderRequest.2

/-- Does one operation after another. -/
def run (t : Terminal) (ops : List Operation) : Except Fault Terminal := ops.foldlM operate t

/-- What some run of a fresh terminal leaves, whatever its size. -/
def Reachable (t : Terminal) : Prop :=
  ∃ cols rows limit ops, (new cols rows limit).run ops = .ok t

end Terminal

end VideoTerminal
