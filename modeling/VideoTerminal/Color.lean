/-!
# Colors

A color is a palette index, an explicit value, or a role of the palette in force.  What it looks
like is decided later, by the palette.

Two role colors agree only if one is a copy of the other: each has a serial number, given when it is
made and kept by its copies.
-/

namespace VideoTerminal

/-- Three eight-bit channels. -/
structure Rgb where
  r : UInt8
  g : UInt8
  b : UInt8
  deriving DecidableEq, Repr

namespace Rgb

/-- The channels of `0xRRGGBB`; anything above is dropped. -/
def ofPacked (n : Nat) : Rgb := ⟨.ofNat (n / 65536), .ofNat (n / 256), .ofNat n⟩

/-- The channels as `0xRRGGBB`. -/
def packed (c : Rgb) : Nat := c.r.toNat * 65536 + c.g.toNat * 256 + c.b.toNat

/-- A color is read back from its packed number. -/
theorem ofPacked_packed (c : Rgb) : ofPacked c.packed = c := by
  obtain ⟨r, g, b⟩ := c
  have hr := r.toNat_lt
  have hg := g.toNat_lt
  have hb := b.toNat_lt
  simp only [ofPacked, packed, mk.injEq]
  refine ⟨?_, ?_, ?_⟩ <;> apply UInt8.toNat_inj.mp <;> simp only [UInt8.toNat_ofNat'] <;> omega

/-- Different colors pack to different numbers. -/
theorem packed_injective {c d : Rgb} (h : c.packed = d.packed) : c = d := by
  rw [← ofPacked_packed c, h, ofPacked_packed]

end Rgb

/-- What a palette color is for. -/
inductive ColorRole
  | foreground | background | cursor | selectionForeground | selectionBackground
  deriving DecidableEq, Repr

/-- The printed name of a role. -/
def ColorRole.name : ColorRole → String
  | .foreground => "Foreground"
  | .background => "Background"
  | .cursor => "Cursor"
  | .selectionForeground => "SelectionForeground"
  | .selectionBackground => "SelectionBackground"

/-- A color, before a palette decides what it looks like. -/
inductive Color
  /-- An index into the palette; those outside 0 to 255 name no color. -/
  | indexed (index : Int)
  /-- A value that no palette changes. -/
  | explicit (rgb : Rgb)
  /-- A role of the palette.  The serial number tells colors apart that were made separately. -/
  | role (role : ColorRole) (serial : Nat)
  deriving DecidableEq, Repr

namespace Color

/-- The index of a palette color. -/
def index? : Color → Option Int
  | .indexed i => some i
  | _ => none

/-- The value of an explicit color. -/
def rgb? : Color → Option Rgb
  | .explicit c => some c
  | _ => none

/-- The role of a role color. -/
def role? : Color → Option ColorRole
  | .role r _ => some r
  | _ => none

/-- A color as text. -/
def describe : Color → String
  | .indexed i => "Indexed(" ++ toString i ++ ")"
  | .explicit c =>
    "Rgb(" ++ toString c.r.toNat ++ ", " ++ toString c.g.toNat ++ ", " ++ toString c.b.toNat ++ ")"
  | .role r _ => "Resolved(" ++ r.name ++ ")"

end Color

/-- A color written as three parts of which one is meant to be present. -/
structure ColorParts where
  index : Option Int := none
  rgb : Option Rgb := none
  role : Option ColorRole := none
  deriving DecidableEq, Repr

namespace ColorParts

/-- The text of an optional part. -/
def describePart (part : Option String) : String :=
  match part with
  | some text => "Some(" ++ text ++ ")"
  | none => "None"

/-- The three parts as text. -/
def describe (p : ColorParts) : String :=
  let rgb := p.rgb.map fun c =>
    "Rgb \x7b r: " ++ toString c.r.toNat ++ ", g: " ++ toString c.g.toNat ++ ", b: "
      ++ toString c.b.toNat ++ " \x7d"
  "(" ++ describePart (p.index.map toString) ++ ", " ++ describePart rgb ++ ", "
    ++ describePart (p.role.map ColorRole.name) ++ ")"

/-- The complaint about parts that are not exactly one. -/
def complaint (p : ColorParts) : String :=
  "a terminal color needs exactly one of index, rgb or role, got " ++ p.describe

/-- The color of the one part present, and `none` unless exactly one is. -/
def color? (p : ColorParts) (serial : Nat) : Option Color :=
  match p with
  | ⟨some i, none, none⟩ => some (.indexed i)
  | ⟨none, some c, none⟩ => some (.explicit c)
  | ⟨none, none, some r⟩ => some (.role r serial)
  | _ => none

/-- Parts make a color exactly if one of the three is given, and only one. -/
theorem color?_isSome_iff (p : ColorParts) (serial : Nat) :
    (p.color? serial).isSome = true ↔
      p.index.isSome.toNat + p.rgb.isSome.toNat + p.role.isSome.toNat = 1 := by
  obtain ⟨i, c, r⟩ := p
  cases i <;> cases c <;> cases r <;> simp [color?]

end ColorParts

/-- A color as a program holds it: the color and the serial number of the place it was made in.
Palette indices from 0 to 255 are kept once for all programs and have no such place. -/
structure ColorHandle where
  color : Color
  serial : Nat
  deriving DecidableEq, Repr

/-- The shared index that a handle stands for, if it does. -/
def ColorHandle.shared? (h : ColorHandle) : Option Int :=
  h.color.index?.filter fun i => decide (0 ≤ i) && decide (i ≤ 255)

/-- Whether two handles hold one and the same color object. -/
def ColorHandle.same (a b : ColorHandle) : Bool :=
  match a.shared?, b.shared? with
  | some i, some j => i == j
  | none, none => a.serial == b.serial
  | _, _ => false

end VideoTerminal
