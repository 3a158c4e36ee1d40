import VideoTerminal.Toml.Reader

/-!
# Quoted text

Text stands between quotes of four kinds: double or single ones, and one or three of them.  Three
allow line ends, double ones allow escapes.  One function reads all four, `Quotes.body`; the kinds
are values of `Quotes`.

Written text is quoted so that it stays readable: without escapes where some kind allows that.  To
find the kind, runs of marks are counted, and a text with more than 255 marks in a row is not
written.
-/

namespace VideoTerminal.Toml

/-- A kind of quotes. -/
structure Quotes where
  mark : Char
  /-- Three marks on either side, with line ends allowed between them. -/
  tripled : Bool
  deriving DecidableEq, Repr

namespace Quotes

def basic : Quotes := ⟨'"', false⟩
def literal : Quotes := ⟨'\'', false⟩
def basicLines : Quotes := ⟨'"', true⟩
def literalLines : Quotes := ⟨'\'', true⟩

/-- Whether a backslash begins an escape. -/
def escapes (q : Quotes) : Bool := q.mark == '"'

/-- The marks on either side. -/
def delimiter (q : Quotes) : List Char := List.replicate (if q.tripled then 3 else 1) q.mark

end Quotes

/-! ## Escapes -/

/-- The letters of the short escapes and what they stand for. -/
def shortEscapes : List (Char × Char) :=
  [('b', '\x08'), ('t', '\t'), ('n', '\n'), ('f', '\x0c'), ('r', '\r'), ('"', '"'), ('\\', '\\')]

/-- The value of a digit to the base sixteen. -/
def hexValue? (c : Char) : Option Nat :=
  if c.isDigit then some (c.toNat - '0'.toNat)
  else if 'a' ≤ c ∧ c ≤ 'f' then some (c.toNat - 'a'.toNat + 10)
  else if 'A' ≤ c ∧ c ≤ 'F' then some (c.toNat - 'A'.toNat + 10)
  else none

/-- Reads `n` digits to the base sixteen behind those that make `value`. -/
def hexNumber : Nat → Nat → Reader Nat
  | 0, value, cs => some (value, cs)
  | _ + 1, _, [] => none
  | n + 1, value, c :: cs => do hexNumber n (value * 16 + (← hexValue? c)) cs

/-- The character of a number, unless there is none. -/
def charOf? (n : Nat) : Option Char := if n.isValidChar then some (.ofNat n) else none

/-- Reads a character given by `n` digits. -/
def hexChar (n : Nat) (cs : List Char) : Option (Char × List Char) :=
  match hexNumber n 0 cs with
  | some (value, rest) => (charOf? value).map fun c => (c, rest)
  | none => none

/-- Reads an escape behind its backslash. -/
def escape : Reader Char
  | [] => none
  | c :: cs =>
    if c == 'u' then hexChar 4 cs
    else if c == 'U' then hexChar 8 cs
    else (shortEscapes.lookup c).map fun e => (e, cs)

/-- The text behind a backslash that ends a line, and behind the blanks and line ends after it. -/
def continuation? (cs : List Char) : Option (List Char) :=
  (newline? (skipSpaces cs)).map skipBlankLines

/-- Reading digits leaves no more text than there was. -/
theorem length_hexNumber {n value result : Nat} {cs rest : List Char}
    (h : hexNumber n value cs = some (result, rest)) : rest.length ≤ cs.length := by
  fun_induction hexNumber n value cs with
  | case1 => cases h; simp
  | case2 => cases h
  | case3 n value c cs ih =>
    simp only [Option.bind_eq_bind, Option.bind_eq_some_iff] at h
    obtain ⟨d, -, h⟩ := h
    exact Nat.le_succ_of_le (ih d h)

/-- An escape takes at least one character. -/
theorem length_escape {c : Char} {cs rest : List Char} (h : escape cs = some (c, rest)) :
    rest.length < cs.length := by
  have hex {n : Nat} {cs' : List Char} (h : hexChar n cs' = some (c, rest)) :
      rest.length ≤ cs'.length := by
    unfold hexChar at h
    split at h
    · next hn =>
      simp only [Option.map_eq_some_iff, Prod.mk.injEq] at h
      obtain ⟨_, -, -, rfl⟩ := h
      exact length_hexNumber hn
    · cases h
  unfold escape at h
  split at h
  · cases h
  · repeat' split at h
    · exact Nat.lt_succ_of_le (hex h)
    · exact Nat.lt_succ_of_le (hex h)
    · simp only [Option.map_eq_some_iff, Prod.mk.injEq] at h
      obtain ⟨_, -, -, rfl⟩ := h
      simp

/-- The end of a line that goes on takes at least one character. -/
theorem length_continuation? {cs rest : List Char} (h : continuation? cs = some rest) :
    rest.length < cs.length := by
  simp only [continuation?, Option.map_eq_some_iff] at h
  obtain ⟨more, hn, rfl⟩ := h
  have h1 := length_newline? hn
  have h2 := length_skipBlankLines more
  have h3 : (skipSpaces cs).length ≤ cs.length := (List.dropWhile_sublist _).length_le
  omega

/-! ## Reading -/

/-- How many marks a text begins with. -/
def markCount (mark : Char) (cs : List Char) : Nat := (cs.takeWhile (· == mark)).length

/-- Puts a character in front of a text that has been read. -/
def prepend (c : Char) (r : Option (List Char × List Char)) : Option (List Char × List Char) :=
  r.map fun (text, rest) => (c :: text, rest)

namespace Quotes

/-- Reads a quoted text behind its opening marks, and the closing marks.  Of more than three marks
at the end, the first ones belong to the text, at most two. -/
def body (q : Quotes) : Reader (List Char)
  | [] => none
  | c :: cs =>
    if c = q.mark then
      if q.tripled then
        let n := markCount q.mark cs
        if n < 2 then prepend c (body q cs)
        else
          let inside := min (n - 2) 2
          some (List.replicate inside q.mark, cs.drop (inside + 2))
      else some ([], cs)
    else if q.escapes && c == '\\' then
      match _h : if q.tripled then continuation? cs else none with
      | some rest => body q rest
      | none =>
        match _he : escape cs with
        | some (e, rest) => prepend e (body q rest)
        | none => none
    else if isPlain c then prepend c (body q cs)
    else if q.tripled then
      match _h : newline? (c :: cs) with
      | some rest => prepend '\n' (body q rest)
      | none => none
    else none
termination_by cs => cs.length
decreasing_by
  · simp
  · split at _h
    · have := length_continuation? _h; simp; omega
    · cases _h
  · have := length_escape _he; simp; omega
  · simp
  · exact length_newline? _h

end Quotes

/-- The text without a line end in front. -/
def dropNewline (cs : List Char) : List Char := (newline? cs).getD cs

/-- Reads quoted text of any kind. -/
def quotedText (cs : List Char) : Option (List Char × List Char) :=
  match cs with
  | [] => none
  | c :: rest =>
    if c == '"' || c == '\'' then
      if 2 ≤ markCount c rest then (Quotes.mk c true).body (dropNewline (rest.drop 2))
      else (Quotes.mk c false).body rest
    else none

/-! ## Writing -/

/-- The longest run of a character. -/
def longestRun (mark : Char) : Nat → List Char → Nat
  | run, [] => run
  | run, c :: cs =>
    if c == mark then longestRun mark (run + 1) cs else max run (longestRun mark 0 cs)

/-- A control that no quotes allow as it is. -/
def needsCode (c : Char) : Bool := !isPlain c && c != '\n'

/-- Whether a text can stand between these quotes as it is.  A tab between double quotes counts as
plain, though it is then written as an escape. -/
def Quotes.holds (q : Quotes) (text : List Char) : Bool :=
  !text.any needsCode
    && !(q.escapes && text.contains '\\')
    && decide (longestRun q.mark 0 text ≤ if q.tripled then 2 else 0)
    && (q.tripled || !text.contains '\n')

/-- The quotes in which a text is written. -/
def Quotes.for (text : List Char) : Quotes :=
  match [basic, literal, basicLines, literalLines].find? fun q => q.holds text with
  | some q => q
  | none => if text.contains '\n' then basicLines else basic

/-- A digit to the base sixteen. -/
def hexDigit (n : Nat) : Char := if n < 10 then .ofNat (48 + n) else .ofNat (55 + n)

/-- The escape of a character. -/
def escapeText (c : Char) : List Char :=
  match shortEscapes.find? fun e => e.2 == c with
  | some e => ['\\', e.1]
  | none => ['\\', 'u', '0', '0', hexDigit (c.toNat / 16), hexDigit (c.toNat % 16)]

/-- What stands for a text between double quotes.  `run` counts the marks before it; between tripled
quotes every third one in a row is escaped. -/
def Quotes.escaped (q : Quotes) : Nat → List Char → List Char
  | _, [] => []
  | run, c :: cs =>
    if c == '"' then
      if run < (if q.tripled then 2 else 0) then c :: Quotes.escaped q (run + 1) cs
      else escapeText c ++ Quotes.escaped q 0 cs
    else if c == '\n' && q.tripled then c :: Quotes.escaped q 0 cs
    else if c == '\t' || c == '\n' || c == '\\' || needsCode c then
      escapeText c ++ Quotes.escaped q 0 cs
    else c :: Quotes.escaped q 0 cs

/-- The longest run of marks in a text that is written. -/
def maxRunOfMarks : Nat := 255

/-- Whether a text can be written: it has no run of marks that is too long. -/
def canQuote (text : List Char) : Bool :=
  [Quotes.basic, Quotes.literal].all fun q => decide (longestRun q.mark 0 text ≤ maxRunOfMarks)

/-- A text in quotes. -/
def quote (text : List Char) : List Char :=
  let q := Quotes.for text
  let front := if q.tripled && text.contains '\n' then ['\n'] else []
  let inside := if q.escapes then q.escaped 0 text else text
  q.delimiter ++ front ++ inside ++ q.delimiter

end VideoTerminal.Toml
