import VideoTerminal.Text.Class
import VideoTerminal.Text.WidthTable

/-!
# Column widths

How many columns a character takes.  A control has no width at all; a combining character has width
zero, an ideograph two, most others one.  A terminal draws no character in more than two columns.
-/

namespace VideoTerminal.Text

/-- Columns taken by `c`, and `none` for a control.  Characters between the controls and the first
entry of the tables are narrow, so they are answered without a search. -/
def width? (c : Char) : Option Nat :=
  if isControl c then none
  else if c.toNat < 0xAD then some 1
  else if zeroWidthTable.covers c then some 0
  else if wideTable.covers c then some 2
  else if c == abbreviationSign then some 3
  else some 1

/-- Columns that a terminal draws `c` in. -/
def columns? (c : Char) : Option Nat := (width? c).map (min · 2)

/-- Only controls have no width. -/
theorem width?_eq_none_iff (c : Char) : width? c = none ↔ isControl c = true := by
  unfold width?
  split
  · simp_all
  · simp_all only [Bool.not_eq_true, Bool.false_eq_true, iff_false]
    repeat' split
    all_goals simp

/-- Only controls are not drawn. -/
theorem columns?_eq_none_iff (c : Char) : columns? c = none ↔ isControl c = true := by
  rw [columns?, Option.map_eq_none_iff, width?_eq_none_iff]

/-- No character is drawn in more than two columns. -/
theorem columns?_le_two {c : Char} {w : Nat} (h : columns? c = some w) : w ≤ 2 := by
  obtain ⟨width, -, rfl⟩ := Option.map_eq_some_iff.mp h
  exact Nat.min_le_right width 2

/-- Characters of no width are those that are drawn in no column. -/
theorem columns?_eq_zero_iff (c : Char) : columns? c = some 0 ↔ width? c = some 0 := by
  rw [columns?, Option.map_eq_some_iff]
  constructor
  · rintro ⟨width, hwidth, hzero⟩
    rw [hwidth, (by omega : width = 0)]
  · exact fun hwidth => ⟨0, hwidth, rfl⟩

end VideoTerminal.Text
