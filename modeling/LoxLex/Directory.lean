import LoxLex.Encoding

set_option relaxedAutoImplicit false
set_option autoImplicit false

/-!
# Directories

A directory tree that is held as a value, with the way in which a path is followed through it. A run
of the program asks its world for the text of a file and knows nothing else of files. This is where
such a world can take the answers from without an operating system: its `readFile` is the `read` of
a tree, and a run over given files can be computed.

## Main definitions

* `LoxLex.Directory` — files and directories by their paths.
* `LoxLex.Place`, `LoxLex.Place.step` — a place on the way, and the next one.
* `LoxLex.Directory.enter`, `LoxLex.Directory.locate` — following a name, and a whole path.
* `LoxLex.Directory.read` — the text of the file at a path.
-/

namespace LoxLex

/-- A file or a directory. -/
inductive DirectoryEntry where
  /-- A file with its bytes. -/
  | file (bytes : List UInt8)
  /-- A directory. -/
  | directory
deriving DecidableEq

/-- A tree of files and directories below a working directory. -/
structure Directory where
  /-- The entries by the names that lead to them. -/
  entries : List (List String × DirectoryEntry)

/-- A place on a way through the tree. -/
inductive Place where
  /-- The names that lead to it from the working directory. -/
  | inside (names : List String)
  /-- One of the directories above the working directory. -/
  | outside
  /-- A place above the working directory of which nothing is known. -/
  | nowhere
deriving DecidableEq

namespace Place

/-- The place that a name leads to from here. Empty names and single dots stay here, and two dots
lead back. Outside of the tree nothing but the directories above it is known, so every other name
leads nowhere. -/
def step (place : Place) (name : String) : Place :=
  match place with
  | inside names =>
    if name = "" ∨ name = "." then place
    else if name = ".." then (if names.isEmpty then outside else inside names.dropLast)
    else inside (names ++ [name])
  | outside => if name = "" ∨ name = "." ∨ name = ".." then outside else nowhere
  | nowhere => nowhere

end Place

namespace Directory

/-- The names on a path, which are divided by slashes. -/
def splitPath (path : String) : List String := (path.toList.splitOn '/').map String.ofList

/-- The tree with the given files and directories. -/
def ofEntries (entries : List (String × DirectoryEntry)) : Directory :=
  ⟨entries.map fun e => (splitPath e.1, e.2)⟩

/-- The entry that a list of names leads to. What lies on the way to an entry is a directory. -/
def find? (d : Directory) (names : List String) : Option DirectoryEntry :=
  match d.entries.find? fun e => e.1 == names with
  | some e => some e.2
  | none => if names.isEmpty || d.entries.any (fun e => names.isPrefixOf e.1) then some .directory
    else none

/-- What is found at a place. -/
def entryAt (d : Directory) : Place → Except IoError DirectoryEntry
  | .inside names =>
    match d.find? names with
    | some entry => .ok entry
    | none => .error .noSuchFile
  | .outside => .ok .directory
  | .nowhere => .error .noSuchFile

/-- Follows one more name from a place that must be a directory. -/
def enter (d : Directory) (place : Place) (name : String) : Except IoError Place :=
  match d.entryAt place with
  | .ok .directory => .ok (place.step name)
  | .ok (.file _) => .error .notADirectory
  | .error cause => .error cause

/-- Where a path begins: a slash in front leads outside of the tree, to the directory above all
others. -/
def origin (path : String) : Place :=
  if path.toList.head? = some '/' then .outside else .inside []

/-- Follows a path. The empty path leads nowhere. -/
def locate (d : Directory) (path : String) : Except IoError DirectoryEntry :=
  if path = "" then .error .noSuchFile
  else (splitPath path).foldlM d.enter (origin path) >>= d.entryAt

/-- The text of the file at a path. -/
def read (d : Directory) (path : String) : Except IoError String :=
  match d.locate path with
  | .error cause => .error cause
  | .ok .directory => .error .isADirectory
  | .ok (.file bytes) => decodeText bytes

end Directory

end LoxLex
