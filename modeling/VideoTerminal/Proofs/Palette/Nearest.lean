import Mathlib.Tactic.Linarith
import Mathlib.Tactic.Ring
import Mathlib.Tactic.Zify
import VideoTerminal.Palette.Nearest

/-!
# The nearest color is the nearest

From index 16 on, every palette has the same 240 colors.  `Rgb.nearestIndex` compares two of them
only: a color of the cube that is found channel by channel, and a gray that is found from the mean.
Each is the nearest of its kind, so that the nearer of the two is the nearest of all
(`Rgb.nearestIndex_nearest`).

For the cube this is so because each channel has its own level, and the steps change half way from
one level to the next (`channelDistance_cubeStep_le`).  The distance from the grays is a parabola in
their level whose lowest point is the mean; the part of the mean that is cut off never reaches the
next point half way between two grays (`distance_nearestGray_le`).

The search is also written down as a machine goes through it (`Rgb.Machine.nearestIndex?`), with its
own table of levels and with words of fixed size for all that is computed on the way.  Every one of
these numbers fits its word.
-/

namespace VideoTerminal

/-! ## The fixed colors -/

namespace Palette

/-- The levels of the cube are zero and then five at equal distances. -/
theorem cubeLevel_cases {step : Nat} (h : step < 6) :
    step = 0 ∧ (cubeLevel step).toNat = 0 ∨
      0 < step ∧ (cubeLevel step).toNat = 55 + 40 * step := by
  unfold cubeLevel
  split
  next hzero => exact .inl ⟨hzero, rfl⟩
  next hpos =>
    refine .inr ⟨Nat.pos_of_ne_zero hpos, ?_⟩
    rw [UInt8.toNat_ofNat']
    omega

/-- The levels of gray are at equal distances. -/
theorem toNat_grayLevel {step : Nat} (h : step < 24) : (grayLevel step).toNat = 8 + 10 * step := by
  rw [grayLevel, UInt8.toNat_ofNat']
  omega

variable (p : Palette)

/-- Behind the sixteen standard colors come those of the cube. -/
theorem indexed?_cube {n : Nat} (h : n < 216) :
    p.indexed? ((16 + n : Nat) : Int) = some (cubeColor n) := by
  have hlow : ¬16 + n < 16 := by omega
  have hhigh : 16 + n < 232 := by omega
  change (if h : 16 + n < 16 then _ else _) = _
  rw [dif_neg hlow, if_pos hhigh, Nat.add_sub_cancel_left]

/-- Behind the cube come the grays. -/
theorem indexed?_gray {step : Nat} (h : step < 24) :
    p.indexed? ((232 + step : Nat) : Int) = some (grayColor step) := by
  have hlow : ¬232 + step < 16 := by omega
  have hcube : ¬232 + step < 232 := by omega
  have hhigh : 232 + step < 256 := by omega
  change (if h : 232 + step < 16 then _ else _) = _
  rw [dif_neg hlow, if_neg hcube, if_pos hhigh, Nat.add_sub_cancel_left]

/-- An index from 16 on names a color of the cube or a gray. -/
theorem fixed_cases {i : Int} (h : 16 ≤ i) (h' : i ≤ 255) :
    (∃ n < 216, i = ((16 + n : Nat) : Int)) ∨ ∃ step < 24, i = ((232 + step : Nat) : Int) := by
  rcases Int.lt_or_le i 232 with hcube | hgray
  · exact .inl ⟨(i - 16).toNat, by omega, by omega⟩
  · exact .inr ⟨(i - 232).toNat, by omega, by omega⟩

end Palette

namespace Rgb

open Palette (cubeLevel grayLevel cubeColor grayColor)

/-- The squared difference, written with a sign. -/
theorem cast_channelDistance (a b : UInt8) :
    (channelDistance a b : Int) = ((a.toNat : Int) - b.toNat) * ((a.toNat : Int) - b.toNat) := by
  unfold channelDistance
  dsimp only
  rcases Nat.le_total a.toNat b.toNat with h | h
  · rw [Nat.max_eq_right h, Nat.min_eq_left h, Nat.cast_mul, Nat.cast_sub h]
    ring
  · rw [Nat.max_eq_left h, Nat.min_eq_right h, Nat.cast_mul, Nat.cast_sub h]

/-- The distance of two levels is at most the square of the greatest one. -/
theorem channelDistance_le (a b : UInt8) : channelDistance a b ≤ 65025 := by
  have ha := a.toNat_lt
  have hb := b.toNat_lt
  unfold channelDistance
  exact Nat.mul_self_le_mul_self (n := 255) (by omega)

/-! ## The cube -/

/-- The steps change half way between the levels. -/
theorem cubeStep_cases (v : UInt8) :
    cubeStep v = 0 ∧ v.toNat ≤ 47 ∨ cubeStep v = 1 ∧ 48 ≤ v.toNat ∧ v.toNat ≤ 114 ∨
      2 ≤ cubeStep v ∧ cubeStep v < 6 ∧ 40 * cubeStep v + 35 ≤ v.toNat ∧
        v.toNat < 40 * cubeStep v + 75 := by
  have hv := v.toNat_lt
  unfold cubeStep
  dsimp only
  split
  · omega
  · split <;> omega

/-- There are six levels. -/
theorem cubeStep_lt (v : UInt8) : cubeStep v < 6 := by
  have hcases := cubeStep_cases v
  omega

/-- **No level is nearer to a channel** than the one of its step. -/
theorem channelDistance_cubeStep_le (v : UInt8) {step : Nat} (h : step < 6) :
    channelDistance v (cubeLevel (cubeStep v)) ≤ channelDistance v (cubeLevel step) := by
  unfold channelDistance
  refine Nat.mul_self_le_mul_self ?_
  have hv := v.toNat_lt
  have hstep := cubeStep_cases v
  have hnear := Palette.cubeLevel_cases (cubeStep_lt v)
  have hother := Palette.cubeLevel_cases h
  omega

/-- The nearest color of the cube is one of it. -/
theorem nearestCube_lt (c : Rgb) : c.nearestCube < 216 := by
  have hr := cubeStep_lt c.r
  have hg := cubeStep_lt c.g
  have hb := cubeStep_lt c.b
  unfold nearestCube
  omega

/-- It has the nearest level in each of its channels. -/
theorem cubeColor_nearestCube (c : Rgb) :
    cubeColor c.nearestCube =
      ⟨cubeLevel (cubeStep c.r), cubeLevel (cubeStep c.g), cubeLevel (cubeStep c.b)⟩ := by
  have hg := cubeStep_lt c.g
  have hb := cubeStep_lt c.b
  have hred : c.nearestCube / 36 = cubeStep c.r := by unfold nearestCube; omega
  have hgreen : c.nearestCube / 6 % 6 = cubeStep c.g := by unfold nearestCube; omega
  have hblue : c.nearestCube % 6 = cubeStep c.b := by unfold nearestCube; omega
  rw [cubeColor, hred, hgreen, hblue]

/-- **No color of the cube is nearer** than the one that is chosen. -/
theorem distance_nearestCube_le (c : Rgb) {n : Nat} (h : n < 216) :
    c.distance (cubeColor c.nearestCube) ≤ c.distance (cubeColor n) := by
  rw [cubeColor_nearestCube]
  have hr := channelDistance_cubeStep_le c.r (show n / 36 < 6 by omega)
  have hg := channelDistance_cubeStep_le c.g (show n / 6 % 6 < 6 by omega)
  have hb := channelDistance_cubeStep_le c.b (show n % 6 < 6 by omega)
  exact Nat.add_le_add (Nat.add_le_add hr hg) hb

/-! ## The grays -/

/-- The gray that is chosen is one of the grays. -/
theorem nearestGray_lt (c : Rgb) : c.nearestGray < 24 := by
  unfold nearestGray
  split <;> omega

/-- The distance from a gray, by the sum of the channels and the sum of their squares. -/
theorem cast_distance_grayColor (c : Rgb) {step : Nat} (h : step < 24) :
    (c.distance (grayColor step) : Int) =
      3 * (8 + 10 * step : Int) * (8 + 10 * step) -
        2 * (8 + 10 * step) * (c.r.toNat + c.g.toNat + c.b.toNat) +
        (c.r.toNat * c.r.toNat + c.g.toNat * c.g.toNat + c.b.toNat * c.b.toNat) := by
  rw [distance, Nat.cast_add, Nat.cast_add, cast_channelDistance, cast_channelDistance,
    cast_channelDistance]
  simp only [grayColor, Palette.toNat_grayLevel h]
  push_cast
  ring

/-- **No gray is nearer** than the one of the mean. -/
theorem distance_nearestGray_le (c : Rgb) {step : Nat} (h : step < 24) :
    c.distance (grayColor c.nearestGray) ≤ c.distance (grayColor step) := by
  have hnear := nearestGray_lt c
  -- The mean lies between the points half way to the grays beside the one chosen.
  have hbelow : c.nearestGray = 0 ∨
      30 * c.nearestGray + 9 ≤ c.r.toNat + c.g.toNat + c.b.toNat := by
    unfold nearestGray mean
    split <;> omega
  have habove : c.nearestGray = 23 ∨
      c.r.toNat + c.g.toNat + c.b.toNat < 30 * c.nearestGray + 39 := by
    unfold nearestGray mean
    split <;> omega
  zify
  rw [cast_distance_grayColor c hnear, cast_distance_grayColor c h]
  generalize c.nearestGray = near at hnear hbelow habove ⊢
  -- Both factors have the same sign, whichever of the two grays is darker.
  have hproduct : 0 ≤ ((step : Int) - near) *
      (78 + 30 * (step + near) - 30 - 2 * (c.r.toNat + c.g.toNat + c.b.toNat)) := by
    rcases Nat.lt_trichotomy step near with hlt | rfl | hlt
    · exact mul_nonneg_of_nonpos_of_nonpos (by omega) (by omega)
    · simp
    · exact mul_nonneg (by omega) (by omega)
  linarith

/-! ## All of them -/

/-- The color found, and the two that it was chosen from. -/
theorem exists_indexed?_nearestIndex (p : Palette) (c : Rgb) :
    ∃ near, p.indexed? c.nearestIndex.toNat = some near ∧
      c.distance near ≤ c.distance (cubeColor c.nearestCube) ∧
      c.distance near ≤ c.distance (grayColor c.nearestGray) := by
  have hcube := nearestCube_lt c
  have hgray := nearestGray_lt c
  unfold nearestIndex
  split
  next hnearer =>
    have hindex : (UInt8.ofNat (232 + c.nearestGray)).toNat = 232 + c.nearestGray := by
      rw [UInt8.toNat_ofNat']
      omega
    rw [hindex]
    exact ⟨_, p.indexed?_gray hgray, Nat.le_of_lt hnearer, Nat.le_refl _⟩
  next hnearer =>
    have hindex : (UInt8.ofNat (16 + c.nearestCube)).toNat = 16 + c.nearestCube := by
      rw [UInt8.toNat_ofNat']
      omega
    rw [hindex]
    exact ⟨_, p.indexed?_cube hcube, Nat.le_refl _, Nat.le_of_not_lt hnearer⟩

/-- A standard color is never chosen. -/
theorem sixteen_le_nearestIndex (c : Rgb) : 16 ≤ c.nearestIndex.toNat := by
  have hcube := nearestCube_lt c
  have hgray := nearestGray_lt c
  unfold nearestIndex
  split <;> (rw [UInt8.toNat_ofNat']; omega)

/-! ## In the words of a machine -/

namespace Machine

/-- A number as a word without a sign, unless it does not fit. -/
def unsigned? (bits : Nat) (n : Int) : Option Int :=
  if 0 ≤ n ∧ n < 2 ^ bits then some n else none

/-- A number as a word with a sign, unless it does not fit. -/
def signed? (bits : Nat) (n : Int) : Option Int :=
  if -2 ^ (bits - 1) ≤ n ∧ n < 2 ^ (bits - 1) then some n else none

/-- A number as a byte, unless it does not fit. -/
def byte? (n : Int) : Option UInt8 := (unsigned? 8 n).map fun n => .ofNat n.toNat

/-- The levels of the cube, as a table. -/
def levels : List UInt8 := [0, 95, 135, 175, 215, 255]

/-- The level of the table at a place, unless the place is outside. -/
def level? (place : Int) : Option UInt8 := levels[place.toNat]?

/-- The place of the level that is nearest to a channel. -/
def cubeStep? (v : UInt8) : Option Int :=
  if v.toNat ≤ 47 then some 0
  else if v.toNat ≤ 114 then some 1
  else do return (← unsigned? 64 (v.toNat - 35)) / 40

/-- The squared difference, a word with a sign up to the square. -/
def channelDistance? (a b : UInt8) : Option Int := do
  let d ← signed? 32 (a.toNat - b.toNat)
  unsigned? 32 (← signed? 32 (d * d))

/-- The squared distance of two colors. -/
def distance? (c d : Rgb) : Option Int := do
  let r ← channelDistance? c.r d.r
  let g ← channelDistance? c.g d.g
  let b ← channelDistance? c.b d.b
  unsigned? 32 ((← unsigned? 32 (r + g)) + b)

/-- The color of the cube, and its index. -/
def nearestCube? (c : Rgb) : Option (Rgb × Int) := do
  let r ← cubeStep? c.r
  let g ← cubeStep? c.g
  let b ← cubeStep? c.b
  let reds ← unsigned? 64 (16 + (← unsigned? 64 (36 * r)))
  let greens ← unsigned? 64 (reds + (← unsigned? 64 (6 * g)))
  let index ← unsigned? 64 (greens + b)
  return (⟨← level? r, ← level? g, ← level? b⟩, index)

/-- The gray of a sum of channels, and its index.  Below the darkest gray the difference stops at
zero. -/
def gray? (sum : Int) : Option (Rgb × Int) := do
  let step := if 238 < sum / 3 then 23 else max 0 (sum / 3 - 3) / 10
  let level ← byte? (← unsigned? 32 (8 + (← unsigned? 32 (10 * step))))
  let index ← unsigned? 64 (232 + step)
  return (⟨level, level, level⟩, index)

/-- The index of the nearest color, with words for everything on the way to it. -/
def nearestIndex? (c : Rgb) : Option UInt8 := do
  let cube ← nearestCube? c
  let gray ← gray? (← unsigned? 32 ((← unsigned? 32 (c.r.toNat + c.g.toNat)) + c.b.toNat))
  if (← distance? c gray.1) < (← distance? c cube.1) then byte? gray.2 else byte? cube.2

/-- The color of an index from 16 to 255, with words for everything on the way to it. -/
def color? (i : Int) : Option Rgb :=
  if i ≤ 231 then do
    let n ← unsigned? 64 (← signed? 32 (i - 16))
    return ⟨← level? (n / 36), ← level? (n / 6 % 6), ← level? (n % 6)⟩
  else do
    let step ← byte? (← signed? 32 (i - 232))
    let level ← byte? (8 + (← unsigned? 8 (10 * step.toNat)))
    return ⟨level, level, level⟩

section Fit

variable {bits : Nat} {n : Int}

/-- A number in its range is kept by an unsigned word. -/
theorem unsigned?_eq (h : 0 ≤ n) (h' : n < 2 ^ bits) : unsigned? bits n = some n := if_pos ⟨h, h'⟩

theorem signed?_eq (h : -2 ^ (bits - 1) ≤ n) (h' : n < 2 ^ (bits - 1)) :
    signed? bits n = some n := if_pos ⟨h, h'⟩

/-- A number in its range is kept by a byte. -/
theorem byte?_eq (h : 0 ≤ n) (h' : n ≤ 255) : byte? n = some (.ofNat n.toNat) := by
  rw [byte?, unsigned?_eq h (by omega), Option.map_some]

/-- The level of a step fits a byte. -/
theorem level?_eq {step : Nat} (h : step < 6) : level? step = some (cubeLevel step) := by
  have hall : ∀ step : Fin 6, level? step.val = some (cubeLevel step.val) := by decide
  exact hall ⟨step, h⟩

end Fit

theorem cubeStep?_eq (v : UInt8) : cubeStep? v = some (cubeStep v : Int) := by
  have hv := v.toNat_lt
  unfold cubeStep? cubeStep
  dsimp only
  split
  · rfl
  · split
    · rfl
    · rw [unsigned?_eq (by omega) (by omega)]
      exact congrArg some (by omega)

theorem channelDistance?_eq (a b : UInt8) :
    channelDistance? a b = some (channelDistance a b : Int) := by
  have ha := a.toNat_lt
  have hb := b.toNat_lt
  have hsquare := cast_channelDistance a b
  have hle := channelDistance_le a b
  unfold channelDistance?
  rw [signed?_eq (by omega) (by omega), Option.bind_eq_bind, Option.bind_some, ← hsquare,
    signed?_eq (by omega) (by omega), Option.bind_some, unsigned?_eq (by omega) (by omega)]

theorem distance?_eq (c d : Rgb) : distance? c d = some (c.distance d : Int) := by
  have hr := channelDistance_le c.r d.r
  have hg := channelDistance_le c.g d.g
  have hb := channelDistance_le c.b d.b
  unfold distance? distance
  rw [channelDistance?_eq, channelDistance?_eq, channelDistance?_eq, Option.bind_eq_bind,
    Option.bind_some, Option.bind_some, Option.bind_some, unsigned?_eq (by omega) (by omega),
    Option.bind_some, unsigned?_eq (by omega) (by omega), Nat.cast_add, Nat.cast_add]

/-- The search for a color of the cube stays within its words. -/
theorem nearestCube?_eq (c : Rgb) :
    nearestCube? c = some (cubeColor c.nearestCube, ((16 + c.nearestCube : Nat) : Int)) := by
  have hr := cubeStep_lt c.r
  have hg := cubeStep_lt c.g
  have hb := cubeStep_lt c.b
  have hindex : (16 + 36 * cubeStep c.r + 6 * cubeStep c.g + cubeStep c.b : Int) =
      ((16 + c.nearestCube : Nat) : Int) := by
    unfold nearestCube
    omega
  unfold nearestCube?
  rw [cubeStep?_eq, cubeStep?_eq, cubeStep?_eq, Option.bind_eq_bind, Option.bind_some,
    Option.bind_some, Option.bind_some, unsigned?_eq (by omega) (by omega), Option.bind_some,
    unsigned?_eq (by omega) (by omega), Option.bind_some, unsigned?_eq (by omega) (by omega),
    Option.bind_some, unsigned?_eq (by omega) (by omega), Option.bind_some,
    unsigned?_eq (by omega) (by omega), Option.bind_some, level?_eq hr, level?_eq hg, level?_eq hb,
    hindex, cubeColor_nearestCube]
  rfl

theorem gray?_eq (c : Rgb) :
    gray? ((c.r.toNat + c.g.toNat : Int) + c.b.toNat) =
      some (grayColor c.nearestGray, ((232 + c.nearestGray : Nat) : Int)) := by
  have hgray := nearestGray_lt c
  have hstep : (if 238 < ((c.r.toNat + c.g.toNat : Int) + c.b.toNat) / 3 then 23
      else max 0 (((c.r.toNat + c.g.toNat : Int) + c.b.toNat) / 3 - 3) / 10) = c.nearestGray := by
    unfold nearestGray mean
    split <;> split <;> omega
  unfold gray?
  dsimp only
  rw [hstep, unsigned?_eq (by omega) (by omega), Option.bind_eq_bind, Option.bind_some,
    unsigned?_eq (by omega) (by omega), Option.bind_some, byte?_eq (by omega) (by omega),
    unsigned?_eq (by omega) (by omega)]
  rfl

/-- **Every number on the way to the nearest color fits its word.** -/
theorem nearestIndex?_eq (c : Rgb) : nearestIndex? c = some c.nearestIndex := by
  have hr := c.r.toNat_lt
  have hg := c.g.toNat_lt
  have hb := c.b.toNat_lt
  have hcube := nearestCube_lt c
  have hgray := nearestGray_lt c
  unfold nearestIndex?
  rw [nearestCube?_eq, Option.bind_eq_bind, Option.bind_some, unsigned?_eq (by omega) (by omega),
    Option.bind_eq_bind, Option.bind_some, unsigned?_eq (by omega) (by omega), Option.bind_some,
    gray?_eq, Option.bind_some, distance?_eq, Option.bind_some, distance?_eq,
    Option.bind_some, byte?_eq (by omega) (by omega), byte?_eq (by omega) (by omega), nearestIndex,
    apply_ite some]
  simp only [Nat.cast_lt, Int.toNat_natCast]

/-- The fixed colors are those of every palette. -/
theorem color?_eq (p : Palette) {i : Int} (h : 16 ≤ i) (h' : i ≤ 255) :
    color? i = p.indexed? i := by
  rcases Palette.fixed_cases h h' with ⟨n, hn, rfl⟩ | ⟨step, hstep, rfl⟩
  · have hindex : ((16 + n : Nat) : Int) - 16 = n := by omega
    rw [p.indexed?_cube hn, color?, if_pos (by omega), hindex, signed?_eq (by omega) (by omega),
      Option.bind_eq_bind, Option.bind_some, unsigned?_eq (by omega) (by omega),
      Option.bind_eq_bind, Option.bind_some]
    have hred : level? ((n : Int) / 36) = some (cubeLevel (n / 36)) :=
      level?_eq (show n / 36 < 6 by omega)
    have hgreen : level? ((n : Int) / 6 % 6) = some (cubeLevel (n / 6 % 6)) :=
      level?_eq (show n / 6 % 6 < 6 by omega)
    have hblue : level? ((n : Int) % 6) = some (cubeLevel (n % 6)) :=
      level?_eq (show n % 6 < 6 by omega)
    rw [hred, hgreen, hblue]
    rfl
  · have hindex : ((232 + step : Nat) : Int) - 232 = step := by omega
    have hbyte : (UInt8.ofNat (step : Int).toNat).toNat = step := by
      rw [UInt8.toNat_ofNat']
      omega
    rw [p.indexed?_gray hstep, color?, if_neg (by omega), hindex,
      signed?_eq (by omega) (by omega), Option.bind_eq_bind, Option.bind_some,
      byte?_eq (by omega) (by omega), Option.bind_eq_bind, Option.bind_some, hbyte,
      unsigned?_eq (by omega) (by omega), Option.bind_some, byte?_eq (by omega) (by omega)]
    rfl

end Machine

/-! ## The nearest of all -/

/-- **The nearest color is the nearest.**  Under every palette, the index found for a color is one
of the fixed ones, and no other fixed color is nearer.  On the way there no number leaves the word
that a machine keeps it in, and its table of levels gives the colors that the palette gives. -/
theorem nearestIndex_nearest (p : Palette) (c : Rgb) :
    16 ≤ c.nearestIndex.toNat ∧ c.nearestIndex.toNat ≤ 255 ∧
    (∃ near, p.indexed? c.nearestIndex.toNat = some near ∧
      ∀ i : Int, 16 ≤ i → i ≤ 255 →
        ∃ other, p.indexed? i = some other ∧ c.distance near ≤ c.distance other) ∧
    Machine.nearestIndex? c = some c.nearestIndex ∧
    ∀ i : Int, 16 ≤ i → i ≤ 255 → Machine.color? i = p.indexed? i := by
  have hlt := c.nearestIndex.toNat_lt
  obtain ⟨near, hnear, hcube, hgray⟩ := exists_indexed?_nearestIndex p c
  refine ⟨sixteen_le_nearestIndex c, by omega, ⟨near, hnear, ?_⟩, Machine.nearestIndex?_eq c,
    fun i h h' => Machine.color?_eq p h h'⟩
  intro i h h'
  rcases Palette.fixed_cases h h' with ⟨n, hn, rfl⟩ | ⟨step, hstep, rfl⟩
  · exact ⟨_, p.indexed?_cube hn, hcube.trans (distance_nearestCube_le c hn)⟩
  · exact ⟨_, p.indexed?_gray hstep, hgray.trans (distance_nearestGray_le c hstep)⟩

/-- Halfway gray is a gray of the ramp, and the gray of the cube next to it is further away. -/
theorem nearestIndex_nearest_gray :
    ∃ near other, (16 : Int) ≤ 102 ∧ (102 : Int) ≤ 255 ∧
      Palette.standard.indexed? 244 = some near ∧ Palette.standard.indexed? 102 = some other ∧
      distance ⟨128, 128, 128⟩ near ≤ distance ⟨128, 128, 128⟩ other := by
  have hindex : (nearestIndex ⟨128, 128, 128⟩).toNat = 244 := by decide
  obtain ⟨-, -, ⟨near, hnear, hall⟩, -⟩ := nearestIndex_nearest .standard ⟨128, 128, 128⟩
  obtain ⟨other, hother, hle⟩ := hall 102 (by decide) (by decide)
  rw [hindex] at hnear
  exact ⟨near, other, by decide, by decide, hnear, hother, hle⟩

end Rgb

end VideoTerminal
