import Mathlib.Order.Monotone.Basic
import VideoTerminal.Proofs.Line.Columns

/-!
# From columns to slots and back

`visualColumn` adds up the widths of the characters before a slot; `slotAt` walks along the line
until a character covers the column.  Whatever the line holds, what is found is the slot that leads
the covering character, or the width if all characters end before the column (`Line.Covers`).

The key fact is `Covers.le`: of two columns, the one further left is never covered further right.
It leaves one slot that covers a column, so the way there and back is fixed (`consistent_columns`).
-/

namespace VideoTerminal.Line

variable {line : Line} {width target target' col col' : Nat}

/-- What covers a column: the slot that leads the character shown there, or the width where all
characters of the line end before it. -/
inductive Covers (line : Line) (width target : Nat) : Nat → Prop
  | past (hend : line.visualColumn width width ≤ target) : Covers line width target width
  | lead {col : Nat} (hcol : col < width) (hlead : line.isStructural col = false)
      (hstart : line.visualColumn col width ≤ target)
      (hend : target < line.visualColumn col width + line.characterWidth col width) :
      Covers line width target col

/-- The column at which the character that covers a column starts. -/
def snap (line : Line) (width target : Nat) : Nat :=
  line.visualColumn (line.slotAt target width) width

/-- Further to the right there are no fewer columns to the left. -/
theorem columnsBefore_mono (line : Line) (width : Nat) : Monotone (line.columnsBefore width) :=
  monotone_nat_of_le_succ fun _ => Nat.le_add_right _ _

/-- What stands further to the right is seen no further to the left. -/
theorem visualColumn_mono (line : Line) (width : Nat) :
    Monotone fun col => line.visualColumn col width := fun _ _ _ =>
  line.columnsBefore_mono width (by omega)

/-- Behind the slot that leads a character, its columns are counted. -/
theorem visualColumn_succ_of_lead (hcol : col < width) (hlead : line.isStructural col = false) :
    line.visualColumn (col + 1) width =
      line.visualColumn col width + line.characterWidth col width := by
  rw [visualColumn_succ line hcol, slotWidth, hlead, if_neg Bool.false_ne_true]

/-! ## What is found -/

namespace Covers

/-- A slot that covers a column lies in the row. -/
theorem le_width (h : line.Covers width target col) : col ≤ width := by
  cases h with
  | past => exact Nat.le_refl width
  | lead hcol => exact Nat.le_of_lt hcol

/-- A slot that covers a column is seen there or to the left of it. -/
theorem visualColumn_le (h : line.Covers width target col) :
    line.visualColumn col width ≤ target := by
  cases h with
  | past hend => exact hend
  | lead _ _ hstart => exact hstart

/-- **Further left is not covered further right.** -/
theorem le (h : line.Covers width target col) (h' : line.Covers width target' col')
    (htarget : target ≤ target') : col ≤ col' := by
  cases h' with
  | past => exact h.le_width
  | lead hcol' hlead' _ hend' =>
      -- Otherwise the character at `col'` would have ended before `target`.
      by_contra hlt
      have hbehind : line.visualColumn (col' + 1) width ≤ line.visualColumn col width :=
        line.visualColumn_mono width (by omega)
      have hstart := h.visualColumn_le
      rw [visualColumn_succ_of_lead hcol' hlead'] at hbehind
      omega

/-- A column is covered by one slot only. -/
theorem unique (h : line.Covers width target col) (h' : line.Covers width target col') :
    col = col' :=
  Nat.le_antisymm (h.le h' (Nat.le_refl target)) (h'.le h (Nat.le_refl target))

/-- The slot that leads a character covers the column at which it starts. -/
theorem of_lead (hcol : col < width) (hlead : line.isStructural col = false) :
    line.Covers width (line.visualColumn col width) col := by
  have hwidth := line.characterWidth_eq_one_or_two col width
  exact .lead hcol hlead (Nat.le_refl _) (by omega)

/-- What covers a column covers the column at which it starts. -/
theorem start (h : line.Covers width target col) :
    line.Covers width (line.visualColumn col width) col := by
  cases h with
  | past => exact .past (Nat.le_refl _)
  | lead hcol hlead => exact .of_lead hcol hlead

end Covers

/-- From a slot on that starts before the column, the walk ends at what covers it. -/
theorem covers_seek {count visual : Nat} (hcol : col + count = width)
    (hvisual : visual = line.visualColumn col width) (hle : visual ≤ target) :
    line.Covers width target (line.seek width target count col visual) := by
  induction count generalizing col visual with
  | zero =>
      obtain rfl : col = width := hcol
      exact .past (hvisual ▸ hle)
  | succ count ih =>
      have hlt : col < width := by omega
      have hnext := visualColumn_succ line hlt
      rw [seek]
      cases hs : line.isStructural col with
      | true =>
          -- No character starts here, and no column is counted.
          rw [slotWidth, hs, if_pos rfl, Nat.add_zero, ← hvisual] at hnext
          exact ih (by omega) hnext.symm hle
      | false =>
          rw [slotWidth, hs, if_neg Bool.false_ne_true, ← hvisual] at hnext
          rw [if_neg Bool.false_ne_true]
          dsimp only
          split
          next hcovers => exact .lead hlt hs (hvisual ▸ hle) (hvisual ▸ hcovers)
          -- The character ends in front of the column, so the walk goes on behind it.
          next hpast => exact ih (by omega) hnext.symm (Nat.le_of_not_lt hpast)

/-- **Each column is covered** by the slot that is found for it. -/
theorem covers_slotAt (line : Line) (width target : Nat) :
    line.Covers width target (line.slotAt target width) :=
  covers_seek (Nat.zero_add width) (by simp [visualColumn, columnsBefore]) (Nat.zero_le target)

/-- For a column further to the right no slot further to the left is found. -/
theorem slotAt_mono (line : Line) (width : Nat) :
    Monotone fun target => line.slotAt target width := by
  intro target target' h
  exact (line.covers_slotAt width target).le (line.covers_slotAt width target') h

/-- A slot that begins a character is found again at its own column. -/
theorem slotAt_visualColumn_of_lead (hcol : col < width) (hlead : line.isStructural col = false) :
    line.slotAt (line.visualColumn col width) width = col :=
  (line.covers_slotAt width _).unique (.of_lead hcol hlead)

/-- A column and the start of its character have the same slot. -/
theorem slotAt_snap (line : Line) (width target : Nat) :
    line.slotAt (line.snap width target) width = line.slotAt target width :=
  (line.covers_slotAt width _).unique (line.covers_slotAt width target).start

/-! ## There and back -/

/-- **Slots and columns are consistent on every line.**  Both ways keep the order; the slot found at
a column is the one whose character covers it; from a column to its slot and back is a step to the
left that a second one does not go beyond; and from a slot that leads a character to its column and
back leads to that slot again. -/
theorem consistent_columns (line : Line) (width : Nat) :
    (Monotone fun col => line.visualColumn col width) ∧
      (Monotone fun target => line.slotAt target width) ∧
      (∀ target, line.Covers width target (line.slotAt target width)) ∧
      (∀ target, line.snap width target ≤ target) ∧
      (∀ target, line.snap width (line.snap width target) = line.snap width target) ∧
      ∀ col < width, line.isStructural col = false →
        line.slotAt (line.visualColumn col width) width = col := by
  refine ⟨line.visualColumn_mono width, line.slotAt_mono width, line.covers_slotAt width,
    ?_, ?_, ?_⟩
  · intro target
    exact (line.covers_slotAt width target).visualColumn_le
  · intro target
    exact congrArg (line.visualColumn · width) (line.slotAt_snap width target)
  · intro col hcol hlead
    exact slotAt_visualColumn_of_lead hcol hlead

/-- A joiner that nothing stands before, then a wide character whose mark comes before its tail, in
a line that goes on behind the width. -/
theorem consistent_columns_mark :
    let line := ofList ['\u200D', 'a', '\u6587', '\u0301', wideTail, 'e', '\u0301', 'z']
    5 < 6 ∧ line.isStructural 5 = false ∧ line.visualColumn 5 6 = 3 ∧
      line.slotAt (line.visualColumn 5 6) 6 = 5 :=
  ⟨by decide, by decide, by decide +kernel,
    (consistent_columns _ 6).2.2.2.2.2 5 (by decide) (by decide)⟩

end VideoTerminal.Line
