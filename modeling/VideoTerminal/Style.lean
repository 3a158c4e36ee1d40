import VideoTerminal.Color

/-!
# Styles

A style is what a cell has besides its character: two optional colors and a set of attributes.
Erased cells keep the colors of the style in force and lose its attributes.
-/

namespace VideoTerminal

/-- A set of the nine text attributes, one bit each. -/
structure Attributes where
  bits : BitVec 9
  deriving DecidableEq, Repr

namespace Attributes

/-- No attribute. -/
def none : Attributes := ⟨0#9⟩

def bold : Attributes := ⟨0b000000001#9⟩
def italic : Attributes := ⟨0b000000010#9⟩
def slowBlink : Attributes := ⟨0b000000100#9⟩
def rapidBlink : Attributes := ⟨0b000001000#9⟩
def dim : Attributes := ⟨0b000010000#9⟩
def inverse : Attributes := ⟨0b000100000#9⟩
def underline : Attributes := ⟨0b001000000#9⟩
def hidden : Attributes := ⟨0b010000000#9⟩
def protect : Attributes := ⟨0b100000000#9⟩

/-- The attributes of a number; bits that name none are dropped. -/
def ofNat (n : Nat) : Attributes := ⟨BitVec.ofNat 9 n⟩

/-- The attributes as a number. -/
def toNat (a : Attributes) : Nat := a.bits.toNat

/-- Attributes in either set. -/
def union (a b : Attributes) : Attributes := ⟨a.bits ||| b.bits⟩

/-- Attributes of `a` that are not in `b`. -/
def diff (a b : Attributes) : Attributes := ⟨a.bits &&& ~~~b.bits⟩

/-- Whether every attribute of `b` is in `a`. -/
def contains (a b : Attributes) : Bool := a.bits &&& b.bits == b.bits

/-- Adds the attributes of `b`, or takes them away. -/
def set (a b : Attributes) (on : Bool) : Attributes := if on then a.union b else a.diff b

end Attributes

/-- Colors and attributes of a cell. -/
structure Style where
  foreground : Option Color := none
  background : Option Color := none
  attributes : Attributes := .none
  deriving DecidableEq, Repr

namespace Style

/-- Neither colors nor attributes. -/
def empty : Style := {}

/-- Whether the style has all attributes of `a`. -/
def has (s : Style) (a : Attributes) : Bool := s.attributes.contains a

/-- The same colors, without attributes. -/
def colorsOnly (s : Style) : Style := { s with attributes := .none }

/-- Adds attributes, or takes them away. -/
def setAttributes (s : Style) (a : Attributes) (on : Bool) : Style :=
  { s with attributes := s.attributes.set a on }

/-- Where the attributes are gone there is nothing more to drop. -/
@[simp] theorem colorsOnly_colorsOnly (s : Style) : s.colorsOnly.colorsOnly = s.colorsOnly := rfl

end Style

end VideoTerminal
