import VideoTerminal.Toml.Value

/-!
# Sections

A document is a list of sections: a header, and keys with their values.  The first section has no
header.  `sections?` reads a text as sections; `Table.ofSections?` makes one table of them.

Arrays and inline tables nest up to a fixed depth, so that reading a value recurses on the levels
that are left.
-/

namespace VideoTerminal.Toml

/-- Opens a section. -/
inductive Header
  /-- The start of the document. -/
  | top
  /-- A table: `[a.b]`. -/
  | table (path : Path)
  /-- One more table of an array: `[[a.b]]`. -/
  | element (path : Path)
  deriving DecidableEq, Repr

/-- A header and what stands below it. -/
structure Section where
  header : Header
  pairs : List (Path × Value)
  deriving Repr

/-! ## Keys -/

/-- A character of a key without quotes. -/
def isBareKeyChar (c : Char) : Bool := c.isAlphanum || c == '-' || c == '_'

/-- Reads one name of a key. -/
def keyName (cs : List Char) : Option (String × List Char) :=
  match cs with
  | [] => none
  | c :: rest =>
    if c == '"' || c == '\'' then
      ((Quotes.mk c false).body rest).map fun (text, rest) => (String.ofList text, rest)
    else
      let name := cs.takeWhile isBareKeyChar
      if name.isEmpty then none else some (String.ofList name, cs.drop name.length)

/-- Names in a key at most. -/
def maxKeyNames : Nat := 79

/-- Reads at most `n` names with dots between them and blanks around them. -/
def keyNames : Nat → Reader (List String)
  | 0, _ => none
  | n + 1, cs => do
    let (name, cs) ← keyName (skipSpaces cs)
    match skipSpaces cs with
    | '.' :: cs => do
      let (names, cs) ← keyNames n cs
      some (name :: names, cs)
    | cs => some ([name], cs)

/-- The key of some names. -/
def Path.ofNames? (names : List String) : Option Path :=
  names.getLast?.map fun name => ⟨names.dropLast, name⟩

/-- Reads a key. -/
def key (cs : List Char) : Option (Path × List Char) := do
  let (names, cs) ← keyNames maxKeyNames cs
  some (← Path.ofNames? names, cs)

/-! ## Values -/

/-- Reads a value that contains no others. -/
def scalar (cs : List Char) : Option (Value × List Char) :=
  match cs with
  | [] => none
  | c :: _ =>
    if c == '"' || c == '\'' then
      (quotedText cs).map fun (text, rest) => (.string (String.ofList text), rest)
    else if c == 't' then (word "true" cs).map fun rest => (.boolean true, rest)
    else if c == 'f' then (word "false" cs).map fun rest => (.boolean false, rest)
    else
      ((DateTime.read cs).map fun (d, rest) => (.dateTime d, rest))
        <|> ((float cs).map fun (x, rest) => (.float x, rest))
        <|> ((integer cs).map fun (n, rest) => (.integer n, rest))

/-- Reads the elements of an array behind its opening bracket, and the closing one.  A comma may
follow the last element. -/
def elements (element : Reader Value) (cs : List Char) : Option (List Value × List Char) :=
  match skipFiller? false cs with
  | none => none
  | some (']' :: rest) => some ([], rest)
  | some start =>
    match element start with
    | none => none
    | some (v, rest) =>
      match skipFiller? false rest with
      | some (',' :: rest) =>
        if rest.length < cs.length then
          (elements element rest).map fun (vs, rest) => (v :: vs, rest)
        else none
      | some (']' :: rest) => some ([v], rest)
      | _ => none
termination_by cs.length

/-- Reads a key, an equals sign and a value, and blanks behind it. -/
def pair (value : Reader Value) (cs : List Char) : Option ((Path × Value) × List Char) :=
  match key cs with
  | some (path, '=' :: rest) => (value (skipSpaces rest)).map fun (v, rest) => ((path, v), rest)
  | _ => none

/-- Reads keys and values with commas between them, and the closing brace. -/
def pairs (value : Reader Value) (cs : List Char) : Option (List (Path × Value) × List Char) :=
  match pair value cs with
  | none => none
  | some (p, rest) =>
    match skipSpaces rest with
    | ',' :: rest =>
      if rest.length < cs.length then
        (pairs value rest).map fun (ps, rest) => (p :: ps, rest)
      else none
    | '\x7d' :: rest => some ([p], rest)
    | _ => none
termination_by cs.length

/-- Reads an inline table behind its opening brace.  No comma may follow the last value. -/
def inlineTable (value : Reader Value) (cs : List Char) : Option (Value × List Char) :=
  match skipSpaces cs with
  | '\x7d' :: rest => some (.table .inline [], rest)
  | _ => do
    let (ps, rest) ← pairs value cs
    let t ← Table.addAll [] .inline ps
    some (.table .inline t, rest)

/-- Reads a value; `levels` arrays and inline tables may be around one another. -/
def value (levels : Nat) (cs : List Char) : Option (Value × List Char) :=
  match levels, cs with
  | levels + 1, '[' :: rest =>
    (elements (value levels) rest).map fun (vs, rest) => (.array false vs, rest)
  | levels + 1, '\x7b' :: rest => inlineTable (value levels) rest
  | _, cs => scalar cs

/-- How deep arrays and inline tables nest. -/
def maxLevels : Nat := 79

/-! ## Lines -/

/-- What a line holds. -/
inductive Statement
  | blank
  | header (h : Header)
  | pair (path : Path) (v : Value)
  deriving Repr

/-- Reads a line and its end. -/
def statement (cs : List Char) : Option (Statement × List Char) :=
  match skipSpaces cs with
  | '[' :: '[' :: rest =>
    match key rest with
    | some (path, ']' :: ']' :: rest) =>
      (endLine? rest).map fun rest => (.header (.element path), rest)
    | _ => none
  | '[' :: rest =>
    match key rest with
    | some (path, ']' :: rest) => (endLine? rest).map fun rest => (.header (.table path), rest)
    | _ => none
  | start =>
    match endLine? start with
    | some rest => some (.blank, rest)
    | none => do
      let ((path, v), rest) ← Toml.pair (value maxLevels) start
      (endLine? rest).map fun rest => (.pair path v, rest)

/-- Reads all lines of a document. -/
def statements (cs : List Char) : Option (List Statement) :=
  if cs.isEmpty then some []
  else
    match statement cs with
    | none => none
    | some (l, rest) =>
      if rest.length < cs.length then (statements rest).map fun ls => l :: ls else none
termination_by cs.length

/-- Divides lines into the ones before the first header, and the sections. -/
def divide : List Statement → List (Path × Value) × List Section
  | [] => ([], [])
  | .blank :: ls => divide ls
  | .pair path v :: ls =>
    let (front, rest) := divide ls
    ((path, v) :: front, rest)
  | .header h :: ls =>
    let (front, rest) := divide ls
    ([], ⟨h, front⟩ :: rest)

/-- A text as sections.  A byte order mark in front of it counts for nothing. -/
def sections? (cs : List Char) : Option (List Section) := do
  let cs := match cs with
    | '\uFEFF' :: rest => rest
    | cs => cs
  let (front, rest) := divide (← statements cs)
  some (⟨.top, front⟩ :: rest)

/-! ## Tables -/

/-- Adds a section to a table.  A header opens a table once, also one that was only implied so far;
an array of tables is opened any number of times. -/
def Table.addSection (t : Table) (s : Section) : Option Table :=
  match s.header with
  | .top => t.addAll .header s.pairs
  | .table path =>
    changeAt false (fun _ outer =>
      match outer.get? path.name with
      | none => openTable outer path.name []
      | some (.table .implied inner) => openTable outer path.name inner
      | some _ => none) path.parents .header t
  | .element path =>
    changeAt false (fun _ outer =>
      match outer.get? path.name with
      | none => extend outer path.name []
      | some (.array true elements) => extend outer path.name elements
      | some _ => none) path.parents .header t
where
  /-- Adds the section to a table that it opens. -/
  openTable (outer : Table) (name : String) (inner : Table) : Option Table := do
    some (outer.put name (.table .header (← inner.addAll .header s.pairs)))
  /-- Adds the section as one more table of an array. -/
  extend (outer : Table) (name : String) (elements : List Value) : Option Table := do
    let inner ← Table.addAll [] .header s.pairs
    some (outer.put name (.array true (elements ++ [.table .header inner])))

/-- The table of a document. -/
def Table.ofSections? (sections : List Section) : Option Table :=
  sections.foldlM addSection []

/-- Reads a document. -/
def read? (text : String) : Option Table := do Table.ofSections? (← sections? text.toList)

end VideoTerminal.Toml
