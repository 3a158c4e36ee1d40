/-!
# Classes of characters

The three classes that the terminal, its input stream and its printed rows distinguish: controls,
the seven-bit controls that end a printable run, and blanks.
-/

namespace VideoTerminal.Text

/-- The first thirty-two characters, which act as soon as they arrive. -/
def isC0 (c : Char) : Bool := decide (c.toNat < 0x20)

/-- A seven-bit control: one of the first thirty-two characters, or DEL.  These end a run of
printable characters. -/
def isControl7 (c : Char) : Bool := isC0 c || c == '\x7f'

/-- A character of the seven-bit alphabet that is not a control. -/
def isPrintable7 (c : Char) : Bool := decide (0x20 ≤ c.toNat) && decide (c.toNat < 0x7F)

/-- A control character of either half: `U+0000` to `U+001F` and `U+007F` to `U+009F`. -/
def isControl (c : Char) : Bool :=
  isC0 c || (decide (0x7F ≤ c.toNat) && decide (c.toNat ≤ 0x9F))

/-- A character with the property White_Space. -/
def isBlank (c : Char) : Bool :=
  let n := c.toNat
  (decide (0x09 ≤ n) && decide (n ≤ 0x0D)) || n == 0x20 || n == 0x85 || n == 0xA0 || n == 0x1680
    || (decide (0x2000 ≤ n) && decide (n ≤ 0x200A)) || n == 0x2028 || n == 0x2029 || n == 0x202F
    || n == 0x205F || n == 0x3000

/-- Every control that ends a printable run is a control character. -/
theorem isControl_of_isControl7 {c : Char} (h : isControl7 c = true) : isControl c = true := by
  simp only [isControl7, Bool.or_eq_true, beq_iff_eq] at h
  rcases h with h | rfl
  · simp [isControl, h]
  · rfl

/-- What is printable is no control. -/
theorem isControl_of_isPrintable7 {c : Char} (h : isPrintable7 c = true) : isControl c = false := by
  simp only [isPrintable7, Bool.and_eq_true, decide_eq_true_eq] at h
  simp only [isControl, isC0, Bool.or_eq_false_iff, Bool.and_eq_false_iff, decide_eq_false_iff_not]
  omega

/-- What is printable does not end a printable run. -/
theorem isControl7_of_isPrintable7 {c : Char} (h : isPrintable7 c = true) :
    isControl7 c = false := by
  refine Bool.eq_false_iff.mpr fun hcontrol => ?_
  have hprintable := isControl_of_isPrintable7 h
  rw [isControl_of_isControl7 hcontrol] at hprintable
  cases hprintable

/-- The blanks of core are blanks here. -/
theorem isBlank_of_isWhitespace {c : Char} (h : c.isWhitespace = true) : isBlank c = true := by
  simp only [Char.isWhitespace, Bool.or_eq_true, decide_eq_true_eq] at h
  rcases h with ((rfl | rfl) | rfl) | rfl <;> rfl

end VideoTerminal.Text
