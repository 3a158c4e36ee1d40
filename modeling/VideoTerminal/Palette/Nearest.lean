import VideoTerminal.Palette

/-!
# The nearest color of 256

Programs and screens that know only 256 colors get the nearest one of the cube and the gray ramp.
The nearest of each is found channel by channel; the cube is preferred where both are equally near.
-/

namespace VideoTerminal

namespace Rgb

/-- The squared difference of two channels. -/
def channelDistance (a b : UInt8) : Nat :=
  let d := max a.toNat b.toNat - min a.toNat b.toNat
  d * d

/-- The squared distance of two colors. -/
def distance (c d : Rgb) : Nat :=
  channelDistance c.r d.r + channelDistance c.g d.g + channelDistance c.b d.b

/-- The level of the cube that is nearest to a channel. -/
def cubeStep (v : UInt8) : Nat :=
  let n := v.toNat
  if n ≤ 47 then 0 else if n ≤ 114 then 1 else (n - 35) / 40

/-- The place in the cube of the nearest color there. -/
def nearestCube (c : Rgb) : Nat := 36 * cubeStep c.r + 6 * cubeStep c.g + cubeStep c.b

/-- The mean of the three channels. -/
def mean (c : Rgb) : Nat := (c.r.toNat + c.g.toNat + c.b.toNat) / 3

/-- The place in the ramp of the gray that stands for a color. -/
def nearestGray (c : Rgb) : Nat := if 238 < c.mean then 23 else (c.mean - 3) / 10

/-- The index of the nearest color of the cube and the ramp. -/
def nearestIndex (c : Rgb) : UInt8 :=
  if c.distance (Palette.grayColor c.nearestGray) < c.distance (Palette.cubeColor c.nearestCube) then
    .ofNat (232 + c.nearestGray)
  else .ofNat (16 + c.nearestCube)

end Rgb

end VideoTerminal
