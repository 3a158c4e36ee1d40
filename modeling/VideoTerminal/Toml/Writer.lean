import VideoTerminal.Toml.Section

/-!
# Writing documents

Sections as text: each header after an empty line, one key a line, arrays with one element a line.
Only what settings consist of can be written: texts, integers and arrays of integers.
-/

namespace VideoTerminal.Toml

/-- A value that can be written. -/
inductive Setting
  | text (s : String)
  | number (n : Int)
  | numbers (ns : List Int)
  deriving DecidableEq, Repr

namespace Setting

/-- The value that is written. -/
def toValue : Setting → Value
  | .text s => .string s
  | .number n => .integer n
  | .numbers ns => .array false (ns.map .integer)

/-- Whether a value can be written. -/
def canWrite : Setting → Bool
  | .text s => canQuote s.toList
  | .number _ => true
  | .numbers _ => true

/-- The text of a value. -/
def toText : Setting → String
  | .text s => String.ofList (quote s.toList)
  | .number n => toString n
  | .numbers [] => "[]"
  | .numbers [n] => "[" ++ toString n ++ "]"
  | .numbers ns => "[\n" ++ String.join (ns.map fun n => "    " ++ toString n ++ ",\n") ++ "]"

end Setting

/-- Settings below one header; the names of the header are plain, and the first section has none. -/
structure Settings where
  names : List String := []
  pairs : List (String × Setting)
  deriving DecidableEq, Repr

namespace Settings

/-- Whether every value of a section can be written. -/
def canWrite (s : Settings) : Bool := s.pairs.all fun pair => pair.2.canWrite

/-- The text of a section without its header. -/
def pairsText (s : Settings) : String :=
  String.join (s.pairs.map fun (name, v) => name ++ " = " ++ v.toText ++ "\n")

/-- The text of a section. -/
def toText (s : Settings) : String :=
  if s.names.isEmpty then s.pairsText
  else "\n[" ++ String.intercalate "." s.names ++ "]\n" ++ s.pairsText

/-- The section as it is read. -/
def toSection (s : Settings) : Section where
  header := (Path.ofNames? s.names).elim .top .table
  pairs := s.pairs.map fun (name, v) => (⟨[], name⟩, v.toValue)

end Settings

/-- The text of some sections. -/
def settingsText (sections : List Settings) : String := String.join (sections.map Settings.toText)

/-- The text of some sections, if every value in them can be written. -/
def write? (sections : List Settings) : Option String :=
  if sections.all Settings.canWrite then some (settingsText sections) else none

end VideoTerminal.Toml
