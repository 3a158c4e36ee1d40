import VideoTerminal.Toml.DateTime
import VideoTerminal.Toml.Quoted

/-!
# Values

What a key of a document stands for.  Tables and arrays remember how they came to be, since that
decides which later lines may add to them.
-/

namespace VideoTerminal.Toml

/-- How a table came to be. -/
inductive Origin
  /-- Written between braces; nothing may be added. -/
  | inline
  /-- Opened by a header of its own. -/
  | header
  /-- Named on the way to a table with a header. -/
  | implied
  /-- Named on the way to a dotted key. -/
  | dotted
  deriving DecidableEq, Repr

/-- A value. -/
inductive Value
  | string (text : String)
  | integer (n : Int)
  | float (x : Numeral)
  | boolean (b : Bool)
  | dateTime (d : DateTime)
  /-- An array; `grows` if it is one of tables, to which headers add. -/
  | array (grows : Bool) (elements : List Value)
  | table (origin : Origin) (entries : List (String × Value))
  deriving Repr

/-- Keys and their values, in the order in which they were added. -/
abbrev Table := List (String × Value)

/-- The names before a key and the key itself, as in `a.b.c`. -/
structure Path where
  parents : List String := []
  name : String
  deriving DecidableEq, Repr

namespace Table

/-- The value of a key. -/
def get? (t : Table) (key : String) : Option Value := t.lookup key

/-- Gives a key a value. -/
def put (t : Table) (key : String) (v : Value) : Table :=
  if (t.get? key).isSome then t.map fun e => if e.1 == key then (key, v) else e
  else t ++ [(key, v)]

/-- Changes the table that is found by way of `names`, and makes those that are missing.  `change`
is told how the table came to be.

A dotted key only passes tables that have no header of their own, and any array of tables is passed
by way of its last one. -/
def changeAt (byDots : Bool) (change : Origin → Table → Option Table) :
    List String → Origin → Table → Option Table
  | [], origin, t => change origin t
  | name :: names, _, t =>
    match t.get? name with
    | none => do
      let origin := if byDots then .dotted else .implied
      let inner ← changeAt byDots change names origin []
      some (t.put name (.table origin inner))
    | some (.table origin inner) =>
      if origin = .inline ∨ origin = .header ∧ byDots then none
      else do
        let inner ← changeAt byDots change names origin inner
        some (t.put name (.table origin inner))
    | some (.array true elements) =>
      match elements.getLast? with
      | some (.table origin inner) => do
        let inner ← changeAt byDots change names origin inner
        some (t.put name (.array true (elements.dropLast ++ [.table origin inner])))
      | _ => none
    | some _ => none

/-- Adds a value under a key that may have dots.  It has to be new, and a table that was not made by
dotted keys takes no value by way of one. -/
def add (t : Table) (origin : Origin) (path : Path) (v : Value) : Option Table :=
  changeAt true (fun origin inner =>
    let direct := path.parents.isEmpty
    if (origin == .dotted) == direct || (inner.get? path.name).isSome then none
    else some (inner ++ [(path.name, v)])) path.parents origin t

/-- Adds values one after the other. -/
def addAll (t : Table) (origin : Origin) (pairs : List (Path × Value)) : Option Table :=
  pairs.foldlM (fun t (path, v) => t.add origin path v) t

end Table

end VideoTerminal.Toml
