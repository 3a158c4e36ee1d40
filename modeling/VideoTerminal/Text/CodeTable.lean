/-!
# Tables of code points

A property of characters that no rule computes is a table: a list of closed ranges of code points.
-/

namespace VideoTerminal.Text

/-- Closed ranges of code points, in increasing order. -/
abbrev CodeTable := List (Nat × Nat)

/-- Whether `c` lies in one of the ranges. -/
def CodeTable.covers (t : CodeTable) (c : Char) : Bool :=
  t.any fun r => decide (r.1 ≤ c.toNat) && decide (c.toNat ≤ r.2)

/-- A table covers the scalars of its ranges, and these with both their ends. -/
theorem CodeTable.covers_iff (t : CodeTable) (c : Char) :
    t.covers c = true ↔ ∃ r ∈ t, r.1 ≤ c.toNat ∧ c.toNat ≤ r.2 := by
  simp [CodeTable.covers]

end VideoTerminal.Text
