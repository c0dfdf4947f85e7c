import Dimensional.ReadError

/-! A directory held in memory, and what reading the files of a path finds there. -/
namespace Dimensional

/-- Files and directories, each with the names on the way to it. -/
structure FileTree where
  files : List (List String × ByteArray)
  directories : List (List String)

namespace FileTree

/-- Where a path has led. Nothing is known about the outside but that it is there. -/
inductive Place where
  | inside (names : List String)
  | outside
deriving DecidableEq, Repr

inductive Entry where
  | file (bytes : ByteArray)
  | directory

/-- The bytes that a name may have. -/
def nameLimit : Nat := 255

/-- The bytes that a path may have. -/
def pathLimit : Nat := 4095

/-- The parts of a path that are no names of their own. -/
def isStay (part : String) : Bool := part == "" || part == "."

/-- The names of a path that only goes down. -/
def names (path : String) : List String :=
  (path.splitOn "/").filter fun part => !isStay part

/-- What stands at a place. All that leads to an entry is a directory. -/
def entry? (tree : FileTree) : Place → Option Entry
  | .outside => some .directory
  | .inside here =>
    match tree.files.lookup here with
    | some bytes => some (.file bytes)
    | none =>
      let known := tree.directories ++ tree.files.map Prod.fst
      if here.isEmpty || known.any here.isPrefixOf then some .directory else none

/-- Go up to the directory around a place. -/
def Place.up : Place → Place
  | .inside [] | .outside => .outside
  | .inside names => .inside names.dropLast

/-- Go down to a name, whether something stands there or not. -/
def Place.down (name : String) : Place → Except ReadError Place
  | .inside names => .ok (.inside (names ++ [name]))
  | .outside => .error .missing

/-- Follow one part of a path. Only a directory can be passed. -/
def follow (tree : FileTree) (place : Place) (part : String) : Except ReadError Place :=
  match tree.entry? place with
  | none => .error .missing
  | some (.file _) => .error .notDirectory
  | some .directory =>
    if isStay part then .ok place
    else if part == ".." then .ok place.up
    else if part.utf8ByteSize > nameLimit then .error .nameTooLong
    else place.down part

/-- Where a path starts. -/
def start (path : String) : Place :=
  if path.startsWith "/" then .outside else .inside []

/-- The bytes of the file at a path. -/
def read (tree : FileTree) (path : String) : Except ReadError ByteArray := do
  if path.utf8ByteSize > pathLimit then throw .nameTooLong
  match tree.entry? (← (path.splitOn "/").foldlM tree.follow (start path)) with
  | none => throw .missing
  | some .directory => throw .isDirectory
  | some (.file bytes) => return bytes

end FileTree

end Dimensional
