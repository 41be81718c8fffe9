import Stencil.Files.Access

/-! A tree of files in memory. -/

namespace Stencil

/-- The names on the way to a file, the innermost first. -/
abbrev Location := List Text

inductive Entry where
  | text (t : Text)
  | undecodable
  | directory
  deriving DecidableEq

/-- The files and directories of the tree, and the directory in which relative paths start.
Directories that hold something need no entry of their own. -/
structure FileTree where
  home : Location
  entries : List (Location × Entry)
  deriving DecidableEq

namespace FileTree

def find? (tree : FileTree) (place : Location) : Option Entry := tree.entries.lookup place

def isDirectory (tree : FileTree) (place : Location) : Bool :=
  place.isSuffixOf tree.home || tree.find? place == some .directory ||
    tree.entries.any fun (inside, _) => place.isSuffixOf inside && inside != place

/-- Follows the pieces of a path. Only directories have something inside. -/
def walk (tree : FileTree) (here : Location) : List Text → Except Fault Location
  | [] => .ok here
  | piece :: rest =>
    if tree.isDirectory here then
      if piece = [] ∨ piece = ['.'] then walk tree here rest
      else if piece = ['.', '.'] then walk tree here.tail rest
      else walk tree (piece :: here) rest
    else .error (if (tree.find? here).isSome then .notDirectory else .notFound)

/-- The place that a path leads to; nothing need be there yet. -/
def locate (tree : FileTree) (path : Path) : Except Fault Location :=
  if path.contains '\x00' then .error .badName
  else if path.isEmpty then .error .notFound
  else walk tree (if path.isAbsolute then [] else tree.home) (path.splitOn '/')

def contents (tree : FileTree) (place : Location) : Except Fault Text :=
  if tree.isDirectory place then .error .isDirectory
  else match tree.find? place with
    | some (.text t) => .ok t
    | some _ => .error .undecodable
    | none => .error .notFound

def read (tree : FileTree) (path : Path) : Except Fault Text :=
  (tree.locate path).bind tree.contents

def isFile (tree : FileTree) (path : Path) : Bool :=
  match tree.locate path with
  | .ok place => !tree.isDirectory place && (tree.find? place).isSome
  | .error _ => false

/-- Replaces the entry at a place, or adds one. -/
def put (tree : FileTree) (place : Location) (entry : Entry) : FileTree :=
  { tree with entries := (place, entry) :: tree.entries.filter (·.1 ≠ place) }

def write (tree : FileTree) (path : Path) (t : Text) : Except Fault FileTree :=
  (tree.locate path).bind fun place =>
    if tree.isDirectory place then .error .isDirectory else .ok (tree.put place (.text t))

/-- The tree as the files of a command that reads `input`. -/
def access (input : Text) : FileAccess (StateM FileTree) where
  read path := do return (← get).read path
  isFile path := do return (← get).isFile path
  write path t := do
    match (← get).write path t with
    | .ok tree => set tree; return .ok ()
    | .error fault => return .error fault
  input := return .ok input

end FileTree

end Stencil
