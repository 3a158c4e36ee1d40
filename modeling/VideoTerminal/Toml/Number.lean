import VideoTerminal.Toml.Reader

/-!
# Numbers

Integers have 64 bits and may be written to the bases 10, 16, 8 and 2.  Other numbers are kept as
the decimals that were written; one that is too large for a double is refused.  Digits may be
separated by single underscores.
-/

namespace VideoTerminal.Toml

/-- A number that is not an integer. -/
inductive Numeral
  /-- The mantissa times a power of ten. -/
  | decimal (negative : Bool) (mantissa : Nat) (exponent : Int)
  | infinity (negative : Bool)
  | notANumber
  deriving DecidableEq, Repr

/-! ## Digits -/

/-- The value of a digit to any base up to sixteen. -/
def digitValue (c : Char) : Nat :=
  if c.isDigit then c.toNat - '0'.toNat
  else if 'a' ≤ c ∧ c ≤ 'f' then c.toNat - 'a'.toNat + 10
  else c.toNat - 'A'.toNat + 10

/-- Whether a character is a digit to a base. -/
def isDigitOf (base : Nat) (c : Char) : Bool :=
  (c.isDigit || decide ('a' ≤ c ∧ c ≤ 'f') || decide ('A' ≤ c ∧ c ≤ 'F'))
    && decide (digitValue c < base)

/-- The number of some digits. -/
def numberOf (base : Nat) (digits : List Char) : Nat :=
  digits.foldl (fun n c => n * base + digitValue c) 0

/-- Reads more digits behind a digit. -/
def moreDigits (base : Nat) : Reader (List Char)
  | [] => some ([], [])
  | '_' :: [] => none
  | '_' :: c :: cs =>
    if isDigitOf base c then (moreDigits base cs).map fun (ds, rest) => (c :: ds, rest) else none
  | c :: cs =>
    if isDigitOf base c then (moreDigits base cs).map fun (ds, rest) => (c :: ds, rest)
    else some ([], c :: cs)

/-- Reads at least one digit. -/
def digits (base : Nat) : Reader (List Char)
  | [] => none
  | c :: cs =>
    if isDigitOf base c then (moreDigits base cs).map fun (ds, rest) => (c :: ds, rest) else none

/-- Reads a sign, if there is one; true stands for minus. -/
def sign : List Char → Bool × List Char
  | '-' :: cs => (true, cs)
  | '+' :: cs => (false, cs)
  | cs => (false, cs)

/-- Reads the digits of a whole number; a zero in front stands alone. -/
def wholeDigits : Reader (List Char)
  | '0' :: cs => some (['0'], cs)
  | cs => digits 10 cs

/-! ## Integers -/

/-- Whether an integer has 64 bits. -/
def isInt64 (n : Int) : Bool :=
  decide (-9223372036854775808 ≤ n) && decide (n ≤ 9223372036854775807)

/-- Reads digits to a base as an integer. -/
def basedInteger (base : Nat) (cs : List Char) : Option (Int × List Char) := do
  let (ds, rest) ← digits base cs
  let n : Int := numberOf base ds
  if isInt64 n then some (n, rest) else none

/-- Reads an integer. -/
def integer : Reader Int
  | '0' :: 'x' :: cs => basedInteger 16 cs
  | '0' :: 'o' :: cs => basedInteger 8 cs
  | '0' :: 'b' :: cs => basedInteger 2 cs
  | cs => do
    let (negative, cs) := sign cs
    let (ds, rest) ← wholeDigits cs
    let n : Int := numberOf 10 ds
    let n := if negative then -n else n
    if isInt64 n then some (n, rest) else none

/-! ## Other numbers -/

/-- The least positive number that a double can only hold as infinity: halfway between the greatest
finite one and two to the power of 1024. -/
def doubleLimit : Nat := Nat.pow 2 1024 - Nat.pow 2 970

/-- Whether a positive decimal is too large for a double. -/
def isTooLarge (mantissa : Nat) (exponent : Int) : Bool :=
  let magnitude : Int := (Nat.toDigits 10 mantissa).length + exponent
  if mantissa = 0 ∨ magnitude < 309 then false
  else if 309 < magnitude then true
  else
    let scale := Nat.pow 10 (-exponent).toNat
    decide (doubleLimit * scale ≤ mantissa * Nat.pow 10 exponent.toNat)

/-- Reads the digits behind a point, if there is one. -/
def fraction : Reader (List Char)
  | '.' :: cs => digits 10 cs
  | cs => some ([], cs)

/-- Reads a power of ten, if there is one. -/
def power (cs : List Char) : Option (Int × List Char) :=
  match cs with
  | c :: cs =>
    if c == 'e' || c == 'E' then do
      let (negative, cs) := sign cs
      let (ds, rest) ← digits 10 cs
      let n : Int := numberOf 10 ds
      some (if negative then -n else n, rest)
    else some (0, c :: cs)
  | [] => some (0, [])

/-- Reads a number with a point or a power of ten. -/
def decimal (cs : List Char) : Option (Numeral × List Char) := do
  let (negative, cs) := sign cs
  let (whole, behindWhole) ← wholeDigits cs
  let (frac, behindFraction) ← fraction behindWhole
  let (exponent, rest) ← power behindFraction
  if rest.length = behindWhole.length then none
  else
    let mantissa := numberOf 10 (whole ++ frac)
    let exponent := exponent - frac.length
    if !negative && isTooLarge mantissa exponent then none
    else some (.decimal negative mantissa exponent, rest)

/-- Reads a word. -/
def word (text : String) (cs : List Char) : Option (List Char) :=
  if text.toList.isPrefixOf cs then some (cs.drop text.length) else none

/-- Reads infinity, or what is no number. -/
def special (cs : List Char) : Option (Numeral × List Char) :=
  let (negative, cs) := sign cs
  match word "inf" cs, word "nan" cs with
  | some rest, _ => some (.infinity negative, rest)
  | none, some rest => some (.notANumber, rest)
  | none, none => none

/-- Reads a number that is not an integer. -/
def float (cs : List Char) : Option (Numeral × List Char) := decimal cs <|> special cs

end VideoTerminal.Toml
