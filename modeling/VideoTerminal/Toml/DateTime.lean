import VideoTerminal.Toml.Number

/-!
# Dates and times

A date, a time of day, or both, and then the offset of the time from universal time.
-/

namespace VideoTerminal.Toml

structure Date where
  year : Nat
  month : Nat
  day : Nat
  deriving DecidableEq, Repr

structure TimeOfDay where
  hour : Nat
  minute : Nat
  second : Nat
  /-- The digits of the fraction of a second. -/
  fraction : List Char := []
  deriving DecidableEq, Repr

/-- A date, a time or both. -/
structure DateTime where
  date : Option Date := none
  time : Option TimeOfDay := none
  /-- Minutes ahead of universal time. -/
  offset : Option Int := none
  deriving DecidableEq, Repr

namespace DateTime

/-- Whether a year has a leap day. -/
def isLeapYear (year : Nat) : Bool := year % 4 == 0 && (year % 100 != 0 || year % 400 == 0)

/-- The days of a month. -/
def daysIn (year month : Nat) : Nat :=
  if month = 2 then if isLeapYear year then 29 else 28
  else if [4, 6, 9, 11].contains month then 30
  else 31

/-- Reads a number of exactly `n` digits. -/
def fixedNumber (n : Nat) (cs : List Char) : Option (Nat × List Char) :=
  let ds := cs.take n
  if ds.length = n ∧ ds.all Char.isDigit then some (numberOf 10 ds, cs.drop n) else none

/-- Reads two digits that make a number in a range. -/
def twoDigits (least greatest : Nat) (cs : List Char) : Option (Nat × List Char) := do
  let (n, rest) ← fixedNumber 2 cs
  if least ≤ n ∧ n ≤ greatest then some (n, rest) else none

/-- Reads one character out of some. -/
def oneOf (choice : List Char) : Reader Char
  | [] => none
  | c :: cs => if choice.contains c then some (c, cs) else none

/-- Reads a date. -/
def readDate (cs : List Char) : Option (Date × List Char) := do
  let (year, cs) ← fixedNumber 4 cs
  let (_, cs) ← oneOf ['-'] cs
  let (month, cs) ← twoDigits 1 12 cs
  let (_, cs) ← oneOf ['-'] cs
  let (day, cs) ← twoDigits 1 31 cs
  if day ≤ daysIn year month then some (⟨year, month, day⟩, cs) else none

/-- Reads the fraction of a second, if there is one. -/
def readFraction (cs : List Char) : List Char × List Char :=
  match cs with
  | '.' :: rest =>
    let ds := rest.takeWhile Char.isDigit
    if ds.isEmpty then ([], cs) else (ds, rest.drop ds.length)
  | _ => ([], cs)

/-- Reads a time of day. -/
def readTime (cs : List Char) : Option (TimeOfDay × List Char) := do
  let (hour, cs) ← twoDigits 0 23 cs
  let (_, cs) ← oneOf [':'] cs
  let (minute, cs) ← twoDigits 0 59 cs
  let (_, cs) ← oneOf [':'] cs
  let (second, cs) ← twoDigits 0 60 cs
  let (fraction, cs) := readFraction cs
  some (⟨hour, minute, second, fraction⟩, cs)

/-- Reads an offset. -/
def readOffset (cs : List Char) : Option (Int × List Char) := do
  let (c, cs) ← oneOf ['Z', 'z', '+', '-'] cs
  if c == 'Z' || c == 'z' then some (0, cs)
  else
    let (hours, cs) ← twoDigits 0 23 cs
    let (_, cs) ← oneOf [':'] cs
    let (minutes, cs) ← twoDigits 0 59 cs
    let ahead : Int := hours * 60 + minutes
    some (if c == '-' then -ahead else ahead, cs)

/-- Reads the time behind a date, and its offset. -/
def readTimeBehind (cs : List Char) : Option ((TimeOfDay × Option Int) × List Char) := do
  let (_, cs) ← oneOf ['T', 't', ' '] cs
  let (time, cs) ← readTime cs
  match readOffset cs with
  | some (offset, cs) => some ((time, some offset), cs)
  | none => some ((time, none), cs)

/-- Reads a date, a time or both. -/
def read (cs : List Char) : Option (DateTime × List Char) :=
  match readDate cs with
  | some (date, cs) =>
    match readTimeBehind cs with
    | some ((time, offset), cs) => some (⟨some date, some time, offset⟩, cs)
    | none => some (⟨some date, none, none⟩, cs)
  | none => (readTime cs).map fun (time, cs) => (⟨none, some time, none⟩, cs)

end DateTime

end VideoTerminal.Toml
