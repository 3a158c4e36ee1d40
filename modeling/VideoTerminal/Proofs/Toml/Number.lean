import VideoTerminal.Proofs.Toml.Quoted
import VideoTerminal.Toml.Section

/-!
# Integers are read as they were written

A value is read as the first of several things that it can be, so a written integer must not be
mistaken for what is tried before it: a date, a time of day, or a number with a point.  All of these
begin with digits, and what follows the digits decides.  Behind a written integer there is a comma,
a bracket or a line end (`endsValue`), and with that the integer is all that can be read
(`scalar_integer`).
-/

namespace VideoTerminal.Toml

/-- What stands behind a written value. -/
def endsValue (c : Char) : Bool := c == ',' || c == ']' || c == '\n'

/-- A value ends at a comma, at a bracket or with its line. -/
theorem endsValue_iff {c : Char} : endsValue c = true ↔ c = ',' ∨ c = ']' ∨ c = '\n' := by
  simp [endsValue, or_assoc]

/-! ## Numerals -/

/-- Decimal digits, without a zero in front of others. -/
structure IsNumeral (ds : List Char) : Prop where
  ne_nil : ds ≠ []
  isDigit : ∀ d ∈ ds, d.isDigit = true
  zero : ∀ more, ds = '0' :: more → more = []

/-- A number but zero has no leading zero. -/
theorem head?_toDigits {n : Nat} (h : 0 < n) : (Nat.toDigits 10 n).head? ≠ some '0' := by
  induction n using Nat.strongRecOn with
  | ind n ih =>
    by_cases hlt : n < 10
    · have hdigit : ∀ k : Fin 10, 0 < k.val → Nat.digitChar k ≠ '0' := by decide
      rw [Nat.toDigits_of_lt_base hlt]
      exact fun hzero => hdigit ⟨n, hlt⟩ h (Option.some.inj hzero)
    · have hhead := ih (n / 10) (by omega) (by omega)
      have hne : Nat.toDigits 10 (n / 10) ≠ [] := Nat.toDigits_ne_nil
      obtain ⟨d, ds, hds⟩ := List.exists_cons_of_ne_nil hne
      rw [Nat.toDigits_of_base_le (by decide) (by omega)]
      rw [hds] at hhead ⊢
      exact hhead

/-- The digits of a number are a numeral. -/
theorem isNumeral_toDigits (n : Nat) : IsNumeral (Nat.toDigits 10 n) where
  ne_nil := Nat.toDigits_ne_nil
  isDigit _ hd := Nat.isDigit_of_mem_toDigits (by decide) (by decide) hd
  zero more h := by
    rcases Nat.eq_zero_or_pos n with rfl | hpos
    · cases h
      rfl
    · exact absurd (congrArg List.head? h) (head?_toDigits hpos)

/-- The digits of base ten are the decimal ones. -/
theorem isDigitOf_ten {c : Char} : isDigitOf 10 c = c.isDigit := by
  cases h : c.isDigit with
  | true =>
    have hle : c.toNat ≤ 57 := (Char.isDigit_iff_toNat.mp h).2
    have hlt : c.toNat - 48 < 10 := by omega
    simp [isDigitOf, digitValue, h, hlt]
  | false =>
    have hge : ¬ digitValue c < 10 := by
      simp only [digitValue, h, Bool.false_eq_true, if_false]
      split <;> omega
    simp [isDigitOf, hge]

/-- A decimal digit has its place as value. -/
theorem digitValue_of_isDigit {c : Char} (h : c.isDigit = true) :
    digitValue c = c.toNat - '0'.toNat := by
  simp [digitValue, h]

/-- The digits of a number stand for it. -/
theorem numberOf_toDigits (n : Nat) : numberOf 10 (Nat.toDigits 10 n) = n := by
  have hfold : ∀ (ds : List Char) (start : Nat), (∀ d ∈ ds, d.isDigit = true) →
      ds.foldl (fun n c => n * 10 + digitValue c) start = Nat.ofDigitChars 10 ds start := by
    intro ds
    induction ds with
    | nil => intro start _; rfl
    | cons d ds ih =>
      intro start hds
      rw [List.foldl_cons, ih _ fun x hx => hds x (List.mem_cons_of_mem d hx),
        Nat.ofDigitChars_cons, digitValue_of_isDigit (hds d (List.mem_cons_self ..)), Nat.mul_comm]
  exact (hfold _ 0 (isNumeral_toDigits n).isDigit).trans
    (Nat.ofDigitChars_toDigits (by decide) (by decide))

/-! ## Digits in front of the end of a value -/

section

variable {ds : List Char} {c : Char} (rest : List Char)

/-- What ends a value is no digit. -/
theorem isDigit_of_endsValue (h : endsValue c = true) : c.isDigit = false := by
  rcases endsValue_iff.mp h with rfl | rfl | rfl <;> rfl

/-- Digits are read up to the end of the value. -/
theorem moreDigits_append (hds : ∀ d ∈ ds, d.isDigit = true) (hc : endsValue c = true) :
    moreDigits 10 (ds ++ c :: rest) = some (ds, c :: rest) := by
  induction ds with
  | nil =>
    have hdigit : isDigitOf 10 c = false := by rw [isDigitOf_ten, isDigit_of_endsValue hc]
    have hne : c ≠ '_' := ne_of_test hc rfl
    simp [moreDigits, hne, hdigit]
  | cons d ds ih =>
    have hd := hds d (List.mem_cons_self ..)
    have hdigit : isDigitOf 10 d = true := by rw [isDigitOf_ten, hd]
    have hne : d ≠ '_' := ne_of_test hd rfl
    have hmore := ih fun x hx => hds x (List.mem_cons_of_mem d hx)
    rw [List.cons_append, moreDigits, if_pos hdigit, hmore]
    · rfl
    · intro h; exact absurd h hne
    · intro _ _ h; exact absurd h hne

variable (h : IsNumeral ds) (hc : endsValue c = true)
include h hc

/-- A numeral is read up to the end of the value. -/
theorem digits_append : digits 10 (ds ++ c :: rest) = some (ds, c :: rest) := by
  obtain ⟨d, more, rfl⟩ := List.exists_cons_of_ne_nil h.ne_nil
  have hd : isDigitOf 10 d = true := by rw [isDigitOf_ten, h.isDigit d (List.mem_cons_self ..)]
  have hmore : ∀ x ∈ more, x.isDigit = true := fun x hx => h.isDigit x (List.mem_cons_of_mem d hx)
  rw [List.cons_append, digits, if_pos hd, moreDigits_append rest hmore hc]
  rfl

/-- A numeral without a leading zero is read as a whole number. -/
theorem wholeDigits_append : wholeDigits (ds ++ c :: rest) = some (ds, c :: rest) := by
  have hdigits := digits_append rest h hc
  obtain ⟨d, more, rfl⟩ := List.exists_cons_of_ne_nil h.ne_nil
  unfold wholeDigits
  split
  · next heq =>
    obtain ⟨rfl, rfl⟩ := List.cons.inj heq
    rw [h.zero more rfl]
    rfl
  · exact hdigits

end

/-! ## What an integer is not mistaken for -/

/-- The sign and the digits of an integer as they are written. -/
def signed (negative : Bool) (ds : List Char) : List Char :=
  if negative then '-' :: ds else ds

/-- What an integer begins with. -/
def beginsInteger (c : Char) : Bool := c == '-' || c.isDigit

section

variable {ds : List Char} {c : Char} (rest : List Char) (negative : Bool)

/-- Where some digits are read, more of them are left, or the end of the value. -/
theorem left_of_fixedNumber (hc : endsValue c = true) {k n : Nat} (hk : 0 < k) {left : List Char}
    (hread : DateTime.fixedNumber k (signed negative ds ++ c :: rest) = some (n, left)) :
    left = ds.drop k ++ c :: rest := by
  obtain ⟨k, rfl⟩ : ∃ j, k = j + 1 := ⟨k - 1, by omega⟩
  simp only [DateTime.fixedNumber] at hread
  split at hread
  · next htake =>
    cases negative with
    | true => simp [signed, Char.isDigit] at htake
    | false =>
      obtain ⟨rfl, rfl⟩ := Prod.mk.inj (Option.some.inj hread)
      simp only [signed, Bool.false_eq_true, if_false, List.all_eq_true] at htake ⊢
      refine List.drop_append_of_le_length (Nat.le_of_not_lt fun hlt => ?_)
      have hmem : c ∈ (ds ++ c :: rest).take (k + 1) := by
        obtain ⟨m, hm⟩ : ∃ m, k + 1 - ds.length = m + 1 := ⟨k - ds.length, by omega⟩
        rw [List.take_append, hm, List.take_succ_cons]
        exact List.mem_append_right _ (List.mem_cons_self ..)
      have hdigit := htake.2 c hmem
      rw [isDigit_of_endsValue hc] at hdigit
      cases hdigit
  · cases hread

variable (h : IsNumeral ds)

include h

/-- A signed numeral begins like an integer. -/
theorem exists_signed_cons :
    ∃ first more, signed negative ds = first :: more ∧ beginsInteger first = true := by
  cases negative with
  | true => exact ⟨'-', ds, rfl, rfl⟩
  | false =>
    obtain ⟨d, more, rfl⟩ := List.exists_cons_of_ne_nil h.ne_nil
    exact ⟨d, more, rfl, by simp [beginsInteger, h.isDigit d (List.mem_cons_self ..)]⟩

/-- The sign is read first. -/
theorem sign_signed : sign (signed negative ds ++ rest) = (negative, ds ++ rest) := by
  cases negative with
  | true => rfl
  | false =>
    obtain ⟨d, more, rfl⟩ := List.exists_cons_of_ne_nil h.ne_nil
    have hd := h.isDigit d (List.mem_cons_self ..)
    simp only [signed, Bool.false_eq_true, if_false, List.cons_append]
    unfold sign
    split
    · next heq => cases heq; cases hd
    · next heq => cases heq; cases hd
    · rfl

/-- A signed numeral is none of the special values. -/
theorem special_signed : special (signed negative ds ++ rest) = none := by
  obtain ⟨d, more, rfl⟩ := List.exists_cons_of_ne_nil h.ne_nil
  have hd := h.isDigit d (List.mem_cons_self ..)
  have hword (text : String) (first : Char) (behind : List Char)
      (htext : text.toList = first :: behind) (hfirst : first.isDigit = false) :
      word text (d :: more ++ rest) = none := by
    simp [word, htext, List.isPrefixOf, (ne_of_test hd hfirst).symm]
  simp only [special, sign_signed rest negative h, hword "inf" 'i' ['n', 'f'] rfl rfl,
    hword "nan" 'n' ['a', 'n'] rfl rfl]

variable (hc : endsValue c = true)

include hc

/-- No point and no power of ten follows. -/
theorem decimal_signed : decimal (signed negative ds ++ c :: rest) = none := by
  have hfraction : fraction (c :: rest) = some ([], c :: rest) := by
    rcases endsValue_iff.mp hc with rfl | rfl | rfl <;> rfl
  have hpower : power (c :: rest) = some (0, c :: rest) := by
    rcases endsValue_iff.mp hc with rfl | rfl | rfl <;> rfl
  simp [decimal, sign_signed (c :: rest) negative h, wholeDigits_append rest h hc, hfraction,
    hpower]

/-- A signed numeral is no float. -/
theorem float_signed : float (signed negative ds ++ c :: rest) = none := by
  rw [float, decimal_signed rest negative h hc, special_signed (c :: rest) negative h]
  rfl

/-- No separator of a date or a time follows digits that have been read. -/
theorem oneOf_separator {k n : Nat} (hk : 0 < k) {left : List Char} {separator : Char}
    (hseparator : separator = '-' ∨ separator = ':')
    (hread : DateTime.fixedNumber k (signed negative ds ++ c :: rest) = some (n, left)) :
    DateTime.oneOf [separator] left = none := by
  have hdigit : separator.isDigit = false := by rcases hseparator with rfl | rfl <;> rfl
  have hends : endsValue separator = false := by rcases hseparator with rfl | rfl <;> rfl
  rw [left_of_fixedNumber rest negative hc hk hread]
  cases hdrop : ds.drop k with
  | nil =>
    simp [DateTime.oneOf, ne_of_test hc hends]
  | cons d more =>
    have hd := h.isDigit d (List.mem_of_mem_drop (hdrop ▸ List.mem_cons_self ..))
    simp [DateTime.oneOf, ne_of_test hd hdigit]

/-- An integer is neither a date nor a time of day. -/
theorem dateTime_signed : DateTime.read (signed negative ds ++ c :: rest) = none := by
  have hdate : DateTime.readDate (signed negative ds ++ c :: rest) = none := by
    unfold DateTime.readDate
    cases hread : DateTime.fixedNumber 4 (signed negative ds ++ c :: rest) with
    | none => rfl
    | some r =>
      have hnone := oneOf_separator rest negative h hc (by decide) (.inl rfl) hread
      simp [hnone]
  have htime : DateTime.readTime (signed negative ds ++ c :: rest) = none := by
    unfold DateTime.readTime DateTime.twoDigits
    cases hread : DateTime.fixedNumber 2 (signed negative ds ++ c :: rest) with
    | none => rfl
    | some r =>
      have hnone := oneOf_separator rest negative h hc (by decide) (.inr rfl) hread
      simp only [Option.bind_eq_bind, Option.bind_some]
      split <;> simp [hnone]
  simp [DateTime.read, hdate, htime]

/-- **A signed numeral** is read as its number, if that has 64 bits. -/
theorem integer_signed {n : Int}
    (hn : (if negative then -(numberOf 10 ds : Int) else numberOf 10 ds) = n)
    (hfits : isInt64 n = true) :
    integer (signed negative ds ++ c :: rest) = some (n, c :: rest) := by
  -- A zero in front is the only digit, and the end of the value names no base.
  have hbase {b : Char} {behind : List Char}
      (heq : signed negative ds ++ c :: rest = '0' :: b :: behind) : endsValue b = true := by
    cases negative with
    | true => cases heq
    | false =>
      obtain ⟨d, more, rfl⟩ := List.exists_cons_of_ne_nil h.ne_nil
      obtain ⟨rfl, hmore⟩ := List.cons.inj heq
      rw [h.zero more rfl] at hmore
      obtain ⟨rfl, -⟩ := List.cons.inj hmore
      exact hc
  unfold integer
  split
  · next heq => cases hbase heq
  · next heq => cases hbase heq
  · next heq => cases hbase heq
  · simp [sign_signed (c :: rest) negative h, wholeDigits_append rest h hc, hn, hfits]

end

/-! ## Integers -/

/-- An integer is written with its sign and its digits. -/
theorem toList_toString (n : Int) :
    (toString n).toList = signed (decide (n < 0)) (Nat.toDigits 10 n.natAbs) := by
  cases n with
  | ofNat m => simp [signed, toString, Int.repr, Nat.toList_repr]
  | negSucc m => simp [signed, toString, Int.repr, Nat.toList_repr]

/-- A value that begins like an integer, and is neither a date nor a number with a point. -/
theorem scalar_of_integer {first : Char} {more left : List Char} {n : Int}
    (hfirst : beginsInteger first = true) (hdate : DateTime.read (first :: more) = none)
    (hfloat : float (first :: more) = none)
    (hinteger : integer (first :: more) = some (n, left)) :
    scalar (first :: more) = some (.integer n, left) := by
  have hne {c : Char} (hc : beginsInteger c = false) : first ≠ c := ne_of_test hfirst hc
  have hbasic : first ≠ '"' := hne rfl
  have hliteral : first ≠ '\'' := hne rfl
  have htrue : first ≠ 't' := hne rfl
  have hfalse : first ≠ 'f' := hne rfl
  simp [scalar, hbasic, hliteral, htrue, hfalse, hdate, hfloat, hinteger]

/-- **A written integer** is read as that integer, whatever sign and however many digits it has. -/
theorem scalar_integer {n : Int} (hfits : isInt64 n = true) {c : Char} (hc : endsValue c = true)
    (rest : List Char) :
    scalar ((toString n).toList ++ c :: rest) = some (.integer n, c :: rest) := by
  have h := isNumeral_toDigits n.natAbs
  have hvalue : (if decide (n < 0) then -(numberOf 10 (Nat.toDigits 10 n.natAbs) : Int)
      else numberOf 10 (Nat.toDigits 10 n.natAbs)) = n := by
    rw [numberOf_toDigits]
    simp only [decide_eq_true_eq]
    split <;> omega
  have hinteger := integer_signed rest (decide (n < 0)) h hc hvalue hfits
  have hdate := dateTime_signed rest (decide (n < 0)) h hc
  have hfloat := float_signed rest (decide (n < 0)) h hc
  obtain ⟨first, more, hcons, hfirst⟩ := exists_signed_cons (decide (n < 0)) h
  rw [hcons, List.cons_append] at hdate hfloat hinteger
  rw [toList_toString, hcons, List.cons_append]
  exact scalar_of_integer hfirst hdate hfloat hinteger

end VideoTerminal.Toml
