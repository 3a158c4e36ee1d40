import VideoTerminal.Line

/-!
# Columns of a line

A wide character owes its second column to the wide tail that closes it.  That tail is a slot of its
own and takes no column, and no other character is closed by it.  So the columns before a slot are
at most as many as the slots before it, and one more only if the slot stands between a wide
character and its tail (`columnsBefore_lt_add_closingWidth`).  A whole line never takes more columns
than it has slots (`visualColumn_le_width`).

How far slots and columns are apart is a matter of counting: each structural slot before a slot
takes one from its column, and each wide character that begins there adds one
(`columnsBefore_add_structuralBefore`).
-/

namespace VideoTerminal.Line

/-- A wide tail never leads a character. -/
theorem isStructural_of_wideTail {line : Line} {col : Nat} (h : line col = some wideTail) :
    line.isStructural col = true := by
  simp [isStructural, h, extendsPrevious]

/-- A character takes one column at least. -/
theorem one_le_closingWidth (line : Line) (count next : Nat) :
    1 ≤ line.closingWidth count next := by
  rcases line.closingWidth_eq_one_or_two count next with h | h <;> omega

theorem closingWidth_le_two (line : Line) (count next : Nat) :
    line.closingWidth count next ≤ 2 := by
  rcases line.closingWidth_eq_one_or_two count next with h | h <;> omega

/-- A slot that leads a character closes nothing. -/
theorem closingWidth_of_lead {line : Line} {count next : Nat}
    (h : line.isStructural next = false) : line.closingWidth count next = 1 := by
  cases count with
  | zero => rfl
  | succ count =>
      have hne : line next ≠ some wideTail := by
        intro ht
        simp [isStructural_of_wideTail ht] at h
      simp [closingWidth, h, hne]

/-- The columns before a slot, the tail that may still be owed counted in. -/
theorem columnsBefore_lt_add_closingWidth (line : Line) (width : Nat) {col : Nat} (h : col ≤ width) :
    line.columnsBefore width col < col + line.closingWidth (width - col) col := by
  induction col with
  | zero =>
      have hone := one_le_closingWidth line width 0
      simp only [columnsBefore, Nat.sub_zero]
      omega
  | succ col ih =>
      have ih := ih (by omega)
      have hone := one_le_closingWidth line (width - (col + 1)) (col + 1)
      rw [columnsBefore, slotWidth]
      by_cases hs : line.isStructural col = true
      · have htwo := closingWidth_le_two line (width - col) col
        rw [if_pos hs]
        omega
      · have hlead : line.closingWidth (width - col) col = 1 :=
          closingWidth_of_lead (Bool.eq_false_iff.mpr hs)
        rw [if_neg hs, characterWidth]
        omega

/-- No slot starts behind the last column. -/
theorem visualColumn_le_width (line : Line) (col width : Nat) :
    line.visualColumn col width ≤ width := by
  have hle : min col width ≤ width := Nat.min_le_right col width
  have hlt := columnsBefore_lt_add_closingWidth line width hle
  unfold visualColumn
  by_cases hend : min col width = width
  · rw [hend, Nat.sub_self] at hlt
    rw [hend]
    simp only [closingWidth] at hlt
    omega
  · have htwo := closingWidth_le_two line (width - min col width) (min col width)
    omega

/-- How many of the first slots take no column of their own. -/
def structuralBefore (line : Line) (col : Nat) : Nat := (List.range col).countP line.isStructural

/-- How many wide characters begin in the first slots. -/
def wideBefore (line : Line) (width col : Nat) : Nat :=
  (List.range col).countP fun i => !line.isStructural i && line.characterWidth i width == 2

/-- Each slot is a column, but for those that take none and those that take two. -/
theorem columnsBefore_add_structuralBefore (line : Line) (width col : Nat) :
    line.columnsBefore width col + line.structuralBefore col = col + line.wideBefore width col := by
  induction col with
  | zero => rfl
  | succ col ih =>
      unfold structuralBefore wideBefore at ih ⊢
      rw [columnsBefore, slotWidth, List.range_succ, List.countP_append, List.countP_append,
        List.countP_singleton, List.countP_singleton]
      cases hs : line.isStructural col with
      | true =>
          simp only [if_true, Bool.not_true, Bool.false_and, Bool.false_eq_true, if_false]
          omega
      | false =>
          rcases line.characterWidth_eq_one_or_two col width with hw | hw
          · simp [hw]
            omega
          · simp [hw]
            omega

end VideoTerminal.Line
