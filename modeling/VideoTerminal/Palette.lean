import VideoTerminal.Palette.Scheme

/-!
# Looking colors up

`Palette.indexed?` answers for all 256 indices, `Palette.role` for the roles, and `Palette.rgbOf?`
for any color.  `Palette.resolve` is the narrower question that a color answers by itself: it
refuses an index, which needs the table.
-/

namespace VideoTerminal

/-- Why a color or a palette is not to be had. -/
inductive ColorError
  /-- An index has no value of its own. -/
  | unresolvedIndex (index : Int)
  /-- No scheme has this name. -/
  | unknownScheme (name : String)
  deriving DecidableEq, Repr

/-- The error in words. -/
def ColorError.message : ColorError → String
  | .unresolvedIndex i =>
    "indexed color " ++ toString i ++ " has no RGB value without a palette lookup"
  | .unknownScheme name => "unknown color scheme: " ++ name

namespace Palette

/-- The palette of xterm. -/
def standard : Palette := Scheme.standard.palette

/-- The palette of a scheme, by any spelling of its name. -/
def byName (name : String) : Except ColorError Palette :=
  match Scheme.ofName? name with
  | some s => .ok s.palette
  | none => .error (.unknownScheme name)

/-- Channel levels of the color cube: 0, then from 95 to 255 in steps of 40. -/
def cubeLevel (step : Nat) : UInt8 := if step = 0 then 0 else .ofNat (55 + 40 * step)

/-- Levels of the gray ramp: from 8 to 238 in steps of 10. -/
def grayLevel (step : Nat) : UInt8 := .ofNat (8 + 10 * step)

/-- The color of a cube index, counted from the first of the cube. -/
def cubeColor (n : Nat) : Rgb := ⟨cubeLevel (n / 36), cubeLevel (n / 6 % 6), cubeLevel (n % 6)⟩

/-- The color of a gray, counted from the darkest. -/
def grayColor (step : Nat) : Rgb := ⟨grayLevel step, grayLevel step, grayLevel step⟩

/-- The color of an index: the sixteen of the palette, the cube, the grays. -/
def indexed? (p : Palette) : Int → Option Rgb
  | .ofNat n =>
    if h : n < 16 then some p.ansi[n]
    else if n < 232 then some (cubeColor (n - 16))
    else if n < 256 then some (grayColor (n - 232))
    else none
  | .negSucc _ => none

/-- The color of a role. -/
def role (p : Palette) : ColorRole → Rgb
  | .foreground => p.foreground
  | .background => p.background
  | .cursor => p.cursor
  | .selectionForeground => p.selectionForeground
  | .selectionBackground => p.selectionBackground

/-- Gives a role another color. -/
def setRole (p : Palette) (role : ColorRole) (rgb : Rgb) : Palette :=
  match role with
  | .foreground => { p with foreground := rgb }
  | .background => { p with background := rgb }
  | .cursor => { p with cursor := rgb }
  | .selectionForeground => { p with selectionForeground := rgb }
  | .selectionBackground => { p with selectionBackground := rgb }

/-- The value of a color that is not an index. -/
def resolve (p : Palette) : Color → Except ColorError Rgb
  | .indexed i => .error (.unresolvedIndex i)
  | .explicit c => .ok c
  | .role r _ => .ok (p.role r)

/-- The value of any color, unless it is an index without one. -/
def rgbOf? (p : Palette) (c : Color) : Option Rgb :=
  match c.index? with
  | some i => p.indexed? i
  | none => (p.resolve c).toOption

/-- A role has the color it has just been given. -/
@[simp] theorem role_setRole_self (p : Palette) (r : ColorRole) (c : Rgb) :
    (p.setRole r c).role r = c := by
  cases r <;> rfl

/-- Giving a color to one role leaves the other roles. -/
theorem role_setRole_of_ne (p : Palette) {r s : ColorRole} (c : Rgb) (h : s ≠ r) :
    (p.setRole r c).role s = p.role s := by
  cases r <;> cases s <;> first | rfl | exact absurd rfl h

/-- Colors with a number are not roles. -/
@[simp] theorem indexed?_setRole (p : Palette) (r : ColorRole) (c : Rgb) (i : Int) :
    (p.setRole r c).indexed? i = p.indexed? i := by
  cases r <;> rfl

/-- Exactly the indices from 0 to 255 have a color. -/
theorem indexed?_isSome_iff (p : Palette) (i : Int) :
    (p.indexed? i).isSome = true ↔ 0 ≤ i ∧ i ≤ 255 := by
  cases i with
  | negSucc n =>
    have hneg := Int.negSucc_lt_zero n
    constructor
    · intro h
      cases h
    · intro h
      omega
  | ofNat n =>
    simp only [indexed?]
    repeat' split
    all_goals
      simp
      omega

end Palette

end VideoTerminal
