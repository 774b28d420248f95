import ScriptLexer.Files.Opening

/-! # File trees

A file system given by its entries: the files and directories below the current directory. A path is
followed name by name. Nothing is known of what lies outside the current directory, so nothing is
found there. -/

namespace ScriptLexer

/-- What there is at a place in a tree. -/
inductive Entry where
  | file (contents : Bytes)
  | directory
deriving DecidableEq, Repr

/-- Entries with their places: the names on the way from the current directory. -/
structure FileTree where
  entries : List (List Text × Entry) := []
deriving DecidableEq, Repr

/-- How far a path has been followed. -/
inductive Reached where
  | file (contents : Bytes)
  | directory (place : List Text)
  | outside
deriving DecidableEq, Repr

/-- The names of a path, between its slashes. They may be empty. -/
def pathNames : Text → List Text
  | [] => [[]]
  | '/' :: rest => [] :: pathNames rest
  | c :: rest =>
    match pathNames rest with
    | name :: names => (c :: name) :: names
    | [] => [[c]]

/-- The length of a text in a file system, which counts bytes. -/
def byteLength (t : Text) : Nat :=
  (Utf8.encode t).length

/-- A path is one byte shorter than this at most. -/
def pathLimit : Nat := 4096

/-- A name has at most so many bytes. -/
def nameLimit : Nat := 255

namespace FileTree

/-- The tree with given entries. An entry may be named by a path. -/
def ofEntries (named : List (Text × Entry)) : FileTree where
  entries := named.map fun e => ((pathNames e.1).filter (· ∉ [[], ['.']]), e.2)

/-- The entry at a place. The places on the way to an entry are directories. -/
def entry? (tree : FileTree) (place : List Text) : Option Entry :=
  match tree.entries.lookup place with
  | some e => some e
  | none =>
    if tree.entries.any fun e => place.isPrefixOf e.1 then some .directory else none

/-- Follows one name. It may be empty, or a point for the same or two points for the enclosing
directory, but only a directory can be looked into. -/
def follow (tree : FileTree) (here : Reached) (name : Text) : Except OpenFailure Reached :=
  match here with
  | .file _ => .error .notADirectory
  | .outside =>
    if name ∈ [[], ['.'], ['.', '.']] then .ok .outside
    else if nameLimit < byteLength name then .error .nameTooLong
    else .error .notFound
  | .directory place =>
    if name ∈ [[], ['.']] then .ok (.directory place)
    else if name = ['.', '.'] then .ok (if place = [] then .outside else .directory place.dropLast)
    else if nameLimit < byteLength name then .error .nameTooLong
    else
      match tree.entry? (place ++ [name]) with
      | some (.file contents) => .ok (.file contents)
      | some .directory => .ok (.directory (place ++ [name]))
      | none => .error .notFound

/-- Follows names one after the other. -/
def followAll (tree : FileTree) (here : Reached) : List Text → Except OpenFailure Reached
  | [] => .ok here
  | name :: rest =>
    match tree.follow here name with
    | .ok next => tree.followAll next rest
    | .error f => .error f

/-- Where a path starts: outside if it is absolute. -/
def startOf (path : Text) : Reached :=
  if path.head? = some '/' then .outside else .directory []

/-- The file system that a tree makes up. -/
def toFileSystem (tree : FileTree) : FileSystem := fun path =>
  if path = [] then .error .notFound
  else if pathLimit ≤ byteLength path then .error .nameTooLong
  else
    match tree.followAll (startOf path) (pathNames path) with
    | .ok (.file contents) => .ok contents
    | .ok _ => .error .isADirectory
    | .error f => .error f

end FileTree

end ScriptLexer
