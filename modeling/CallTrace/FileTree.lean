import CallTrace.Recording.OfFile

/-!
# File trees

A file tree holds the files below a working directory and tells what stands at a path.
A path is a list of names between slashes.  Each name but the last must stand for a
directory; an empty name or a single point stays where it is, and two points lead one
level up.  So several paths can lead to the same place, and of several files that are
written there the last one remains.  Nothing is known of what else is above the working
directory, except that there are directories.
-/

namespace CallTrace

/-- Files and directories by their places, which are lists of names, innermost first.
    Of two entries for a place the first one counts. -/
structure FileTree where
  entries : List (List String × FileState) := []
deriving Repr, Inhabited

/-- Where a path leads. -/
inductive Spot where
  /-- Below the working directory; the names, innermost first. -/
  | below (names : List String)
  | above
deriving DecidableEq, Repr

/-- Takes a character in front of names; a slash ends the name that is in front. -/
def pushChar (c : Char) : List Char × List String → List Char × List String
  | (name, later) => if c = '/' then ([], String.ofList name :: later) else (c :: name, later)

/-- The names of a path. -/
def pathNames (path : String) : List String :=
  let (name, later) := path.toList.foldr pushChar ([], [])
  String.ofList name :: later

/-- Paths of this many bytes and longer ones lead nowhere. -/
def pathLimit : Nat := 4096

/-- Whether a name stays at the same place. -/
def staysHere (name : String) : Bool :=
  name == "" || name == "."

/-- Where a path begins. -/
def Spot.start (path : String) : Spot :=
  if path.toList.head? = some '/' then .above else .below []

namespace FileTree

/-- What stands at a spot. -/
def at? (tree : FileTree) : Spot → FileState
  | .above => .directory
  | .below [] => .directory
  | .below names => (tree.entries.lookup names).getD .absent

/-- Follows one name of a path. -/
def follow (tree : FileTree) (spot : Spot) (name : String) : Option Spot :=
  if tree.at? spot = .directory then
    if staysHere name then some spot
    else
      match spot with
      | .above => if name == ".." then some .above else none
      | .below [] => some (if name == ".." then .above else .below [name])
      | .below (last :: names) =>
        some (if name == ".." then .below names else .below (name :: last :: names))
  else none

/-- What stands at a path. -/
def look (tree : FileTree) (path : String) : FileState :=
  if path.isEmpty ∨ pathLimit ≤ path.utf8ByteSize then .absent
  else
    match (pathNames path).foldlM tree.follow (.start path) with
    | some spot => tree.at? spot
    | none => .absent

/-- Places a file or a directory at a spot.  A file takes the place of a file, and of
    nothing else. -/
def place (tree : FileTree) (spot : Spot) (state : FileState) : FileTree :=
  match spot, tree.at? spot, state with
  | .below names, .absent, _ | .below names, .file _, .file _ => ⟨(names, state) :: tree.entries⟩
  | _, _, _ => tree

/-- Follows one name of a path and makes the directory that it is followed from. -/
def make (reached : FileTree × Spot) (name : String) : Option (FileTree × Spot) :=
  let tree := reached.1.place reached.2 .directory
  (tree.follow reached.2 name).map (tree, ·)

/-- Where a path leads once the directories on the way are made. -/
def way? (tree : FileTree) (path : String) : Option (FileTree × Spot) :=
  (pathNames path).foldlM make (tree, .start path)

/-- Places a file or a directory where a path leads, with the directories on the way. -/
def put (tree : FileTree) (path : String) (state : FileState) : FileTree :=
  match tree.way? path with
  | some (tree, spot) => tree.place spot state
  | none => tree

/-- The tree of some files, placed in their order. -/
def ofFiles (files : List (String × FileState)) : FileTree :=
  files.foldl (fun tree (path, state) => tree.put path state) {}

end FileTree

end CallTrace
