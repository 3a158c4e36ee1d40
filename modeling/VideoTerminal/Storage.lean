/-!
# What is stored

What the program finds at a path, and a folder in which paths are looked up.  A path names its parts
one after the other: a part that is empty or a dot stays where it is, two dots go up, and any other
part names an entry.  Only a folder has parts: a path that goes on behind a file leads nowhere.
-/

namespace VideoTerminal

/-- What is found at a path. -/
inductive Stored
  | missing
  | directory
  | file (content : List UInt8)
  deriving DecidableEq, Repr

/-- The files of a folder and of the folders in it, each with the parts of its path. -/
structure Folder where
  files : List (List String × List UInt8)
  deriving DecidableEq, Repr

namespace Folder

/-- What the parts of a path, read from the folder itself, lead to. -/
def entry (f : Folder) (parts : List String) : Stored :=
  if parts = [] then .directory
  else
    match f.files.lookup parts with
    | some content => .file content
    | none => if f.files.any fun file => parts.isPrefixOf file.1 then .directory else .missing

/-- Follows parts from a folder inside this one.  Outside of this folder nothing is found. -/
def follow (f : Folder) (place : List String) : List String → Stored
  | [] => f.entry place
  | part :: rest =>
    if f.entry place ≠ .directory then .missing
    else if part = "" ∨ part = "." then f.follow place rest
    else if part = ".." then
      if place.isEmpty then .missing else f.follow place.dropLast rest
    else f.follow (place ++ [part]) rest

/-- What is found at a path.  The empty path leads nowhere, and neither does one that does not start
in this folder. -/
def find (f : Folder) (path : String) : Stored :=
  if path = "" ∨ path.startsWith "/" then .missing else f.follow [] (path.splitOn "/")

/-- A path of one part finds the file of that name. -/
theorem follow_singleton (f : Folder) {name : String} {content : List UInt8}
    (hname : name ≠ "" ∧ name ≠ "." ∧ name ≠ "..")
    (h : f.files.lookup [name] = some content) : f.follow [] [name] = .file content := by
  simp [follow, hname, entry, h]

end Folder

end VideoTerminal
