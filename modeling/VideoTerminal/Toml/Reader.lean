/-!
# Reading from the front

A reader takes something off the front of a text and returns what is left, or it fails.  Blanks,
comments and line ends are read here.
-/

namespace VideoTerminal.Toml

/-- Takes something off the front of a text. -/
abbrev Reader (α : Type) := List Char → Option (α × List Char)

/-- A blank within a line. -/
def isSpace (c : Char) : Bool := c == ' ' || c == '\t'

/-- A character that may stand for itself in comments and strings: anything but a control, and the
tab. -/
def isPlain (c : Char) : Bool := c == '\t' || (decide (0x20 ≤ c.toNat) && c != '\x7f')

/-- The text behind blanks. -/
def skipSpaces (cs : List Char) : List Char := cs.dropWhile isSpace

/-- The text behind a line end. -/
def newline? : List Char → Option (List Char)
  | '\n' :: cs => some cs
  | '\r' :: '\n' :: cs => some cs
  | _ => none

/-- The text behind a line end or, where the text has ended, nothing. -/
def lineEnd? (cs : List Char) : Option (List Char) := if cs.isEmpty then some [] else newline? cs

/-- The text behind the rest of a line, which holds blanks and a comment at most. -/
def endLine? (cs : List Char) : Option (List Char) :=
  match skipSpaces cs with
  | '#' :: rest => lineEnd? (rest.dropWhile isPlain)
  | rest => lineEnd? rest

/-- The text behind blanks and line ends. -/
def skipBlankLines : List Char → List Char
  | '\r' :: '\n' :: cs => skipBlankLines cs
  | c :: cs => if isSpace c || c == '\n' then skipBlankLines cs else c :: cs
  | [] => []

/-- The text behind blanks, line ends and comments.  A comment must end in a line end; `inComment`
tells whether one has begun. -/
def skipFiller? (inComment : Bool) : List Char → Option (List Char)
  | [] => if inComment then none else some []
  | '\r' :: '\n' :: cs => skipFiller? false cs
  | c :: cs =>
    if c == '\n' then skipFiller? false cs
    else if inComment then if isPlain c then skipFiller? true cs else none
    else if c == '#' then skipFiller? true cs
    else if isSpace c then skipFiller? false cs
    else some (c :: cs)

/-- The end of a line takes at least one character. -/
theorem length_newline? {cs rest : List Char} (h : newline? cs = some rest) :
    rest.length < cs.length := by
  unfold newline? at h
  split at h
  · cases h
    exact Nat.lt_succ_self _
  · cases h
    simp only [List.length_cons]
    omega
  · cases h

/-- Skipping blank lines leaves no more text than there was. -/
theorem length_skipBlankLines (cs : List Char) : (skipBlankLines cs).length ≤ cs.length := by
  fun_induction skipBlankLines cs <;> simp_all <;> omega

end VideoTerminal.Toml
