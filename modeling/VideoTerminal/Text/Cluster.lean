import VideoTerminal.Text.Class
import VideoTerminal.Text.ClusterTable

/-!
# Grapheme clusters

A grapheme cluster is what a reader takes for one character: a letter with its marks, a syllable, a
flag, a chain of joined pictographs.  The rules look only backwards, so a text is cut by a scanner
that reads it once from the left.  `Scan.joins` is the rule for one position, `clusters` the list of
clusters of a text, and `splitLastCluster` sets the cluster at the end apart, which is the only one
that further characters can change.

The scanner restarts at every boundary: its state there is that of a text which begins with the
next character.
-/

namespace VideoTerminal.Text

/-- Grapheme-break classes. -/
inductive BreakClass
  | carriageReturn | lineFeed | control | extend | joiner | regional | prepended | spacingMark
  | leading | vowel | trailing | syllable | closedSyllable | pictograph | consonant | other
  deriving DecidableEq, Repr

/-- The class of a character.  Syllables of Hangul come in groups of twenty-eight, of which the
first has no final consonant. -/
def BreakClass.of (c : Char) : BreakClass :=
  let n := c.toNat
  if c == '\r' then .carriageReturn
  else if c == '\n' then .lineFeed
  else if isC0 c then .control
  else if n < 0x7F then .other
  else if 0xAC00 ≤ n ∧ n ≤ 0xD7A3 then
    if (n - 0xAC00) % 28 == 0 then .syllable else .closedSyllable
  else if 0x1F1E6 ≤ n ∧ n ≤ 0x1F1FF then .regional
  else if n == 0x200D then .joiner
  else if controlTable.covers c then .control
  else if extendTable.covers c then .extend
  else if (0x1100 ≤ n ∧ n ≤ 0x115F) ∨ (0xA960 ≤ n ∧ n ≤ 0xA97C) then .leading
  else if (0x11A8 ≤ n ∧ n ≤ 0x11FF) ∨ (0xD7CB ≤ n ∧ n ≤ 0xD7FB) then .trailing
  else if vowelTable.covers c then .vowel
  else if prependTable.covers c then .prepended
  else if spacingMarkTable.covers c then .spacingMark
  else if pictographTable.covers c then .pictograph
  else if conjunctConsonantTable.covers c then .consonant
  else .other

/-- How far a cluster has come towards tying the next character to one before it: not at all, by a
character that could be tied, or by that character and the sign that ties. -/
inductive Tie
  | loose | ready | tied
  deriving DecidableEq, Repr

/-- What the rules need to know about the text read so far. -/
structure Scan where
  /-- Class of the last character. -/
  last : BreakClass
  /-- The text ends in an odd run of regional indicators. -/
  unpaired : Bool
  /-- Pictograph, extenders, joiner. -/
  pictograph : Tie
  /-- Consonant, extenders and linkers with at least one linker. -/
  conjunct : Tie
  deriving DecidableEq, Repr

namespace Scan

/-- The state after a text of one character. -/
def start (c : Char) : Scan :=
  let k := BreakClass.of c
  { last := k
    unpaired := k == .regional
    pictograph := if k == .pictograph then .ready else .loose
    conjunct := if k == .consonant then .ready else .loose }

/-- Whether no boundary lies before `c` after the text read so far. -/
def joins (s : Scan) (c : Char) : Bool :=
  match s.last, BreakClass.of c with
  | .carriageReturn, .lineFeed => true
  | .carriageReturn, _ | .lineFeed, _ | .control, _ => false
  | _, .carriageReturn | _, .lineFeed | _, .control => false
  | .leading, .leading | .leading, .vowel | .leading, .syllable | .leading, .closedSyllable => true
  | .syllable, .vowel | .syllable, .trailing | .vowel, .vowel | .vowel, .trailing => true
  | .closedSyllable, .trailing | .trailing, .trailing => true
  | _, .extend | _, .joiner | _, .spacingMark => true
  | .prepended, _ => true
  | _, .pictograph => s.pictograph == .tied
  | _, .consonant => s.conjunct == .tied
  | .regional, .regional => s.unpaired
  | _, _ => false

/-- The tie of pictographs after one more character of class `k`. -/
def tiePictograph (t : Tie) (k : BreakClass) : Tie :=
  match t, k with
  | _, .pictograph => .ready
  | .ready, .extend => .ready
  | .ready, .joiner => .tied
  | _, _ => .loose

/-- The tie of consonants after one more character.  The zero-width non-joiner is the one extender
that undoes it. -/
def tieConjunct (t : Tie) (c : Char) : Tie :=
  match t, BreakClass.of c with
  | _, .consonant => .ready
  | .loose, _ => .loose
  | t, .joiner => t
  | t, .extend =>
    if conjunctLinkerTable.covers c then .tied else if c == '\u200C' then .loose else t
  | _, _ => .loose

/-- The state after one more character of the same cluster. -/
def extend (s : Scan) (c : Char) : Scan :=
  let k := BreakClass.of c
  { last := k
    unpaired := k == .regional && !(s.last == .regional && s.unpaired)
    pictograph := tiePictograph s.pictograph k
    conjunct := tieConjunct s.conjunct c }

end Scan

/-- A text cut into clusters as far as it has been read.  The last cluster may still grow. -/
structure Clustering where
  /-- Clusters that are complete, the latest first. -/
  complete : List (List Char)
  /-- The open cluster, its latest character first. -/
  current : List Char
  /-- What the rules know of the open cluster. -/
  scan : Scan

namespace Clustering

/-- A text of one character. -/
def start (c : Char) : Clustering := ⟨[], [c], Scan.start c⟩

/-- One more character joins the open cluster or opens the next one. -/
def push (k : Clustering) (c : Char) : Clustering :=
  if k.scan.joins c then { k with current := c :: k.current, scan := k.scan.extend c }
  else ⟨k.current.reverse :: k.complete, [c], Scan.start c⟩

/-- The clustering of a text that is not empty, given its first character and the rest. -/
def ofText (c : Char) (rest : List Char) : Clustering :=
  rest.foldl push (start c)

/-- All clusters, in order. -/
def toList (k : Clustering) : List (List Char) :=
  (k.current.reverse :: k.complete).reverse

end Clustering

/-- The grapheme clusters of a text, in order. -/
def clusters : List Char → List (List Char)
  | [] => []
  | c :: rest => (Clustering.ofText c rest).toList

/-- A text without its last cluster, and that cluster. -/
def splitLastCluster : List Char → List Char × List Char
  | [] => ([], [])
  | c :: rest =>
    let k := Clustering.ofText c rest
    (k.complete.reverse.flatten, k.current.reverse)

namespace Clustering

/-- A scalar is added at the end, whether it joins the last cluster or begins one. -/
theorem flatten_toList_push (k : Clustering) (c : Char) :
    (k.push c).toList.flatten = k.toList.flatten ++ [c] := by
  unfold push
  split <;> simp [toList]

/-- So the clusters of a text spell the text. -/
theorem flatten_toList_foldl_push (k : Clustering) (rest : List Char) :
    (rest.foldl push k).toList.flatten = k.toList.flatten ++ rest := by
  induction rest generalizing k with
  | nil => simp
  | cons c rest ih => simp [ih, flatten_toList_push]

end Clustering

/-- Cutting a text into clusters loses nothing. -/
theorem flatten_clusters (text : List Char) : (clusters text).flatten = text := by
  cases text with
  | nil => rfl
  | cons c rest =>
    rw [clusters, Clustering.ofText, Clustering.flatten_toList_foldl_push]
    rfl

/-- Setting the last cluster apart loses nothing. -/
theorem splitLastCluster_append (text : List Char) :
    (splitLastCluster text).1 ++ (splitLastCluster text).2 = text := by
  cases text with
  | nil => rfl
  | cons c rest =>
    have h := flatten_clusters (c :: rest)
    simpa [clusters, splitLastCluster, Clustering.toList] using h

end VideoTerminal.Text
