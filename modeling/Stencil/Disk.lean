import Stencil.Storage
import Stencil.Text.Split
/-!
# Disk — files as a value

A `Disk` holds files and directories by location, the row of names that leads to them from the root, and it knows the
location of the directory where relative paths start, so that an absolute and a relative path may lead to one file.  That
directory and those it is in are always there.  Paths are resolved name by name, so that a missing directory, a file in
place of a directory and a directory in place of a file are told apart.  `Storage` on a state of a disk reads and writes
these files.
-/
namespace Stencil

/-- The names that lead to a file or directory from the root. -/
abbrev Location := List String

namespace Location

/-- The location that a name leads to from a directory.  Nothing is above the root. -/
def step (location : Location) (name : String) : Location :=
  if name = "." then location
  else if name = ".." then location.dropLast
  else location ++ [name]

/-- Whether a path starts at the root. -/
def isAbsolute (path : String) : Bool := path.toList.head? == some '/'

/-- The names of a path. -/
def names (path : String) : List String := (Text.splitOn '/' path).filter fun name => !name.isEmpty

end Location

inductive Entry
  | file (bytes : ByteArray)
  | directory

structure Disk where
  /-- The directory where relative paths start. -/
  home : Location := ["home", "work"]
  entries : List (Location × Entry) := []

namespace Disk

/-- Where a path starts. -/
def start (d : Disk) (path : String) : Location := if Location.isAbsolute path then [] else d.home

/-- What is at a location. -/
def at? (d : Disk) (location : Location) : Option Entry :=
  if location <+: d.home then some .directory else d.entries.lookup location

/-- The entries with one location set. -/
def putEntry (location : Location) (e : Entry) : List (Location × Entry) → List (Location × Entry)
  | [] => [(location, e)]
  | (l, e') :: rest => if l = location then (location, e) :: rest else (l, e') :: putEntry location e rest

/-- The disk with an entry at a location. -/
def put (d : Disk) (location : Location) (e : Entry) : Disk := { d with entries := putEntry location e d.entries }

/-- The directory that a name leads to from a directory. -/
def descend (d : Disk) (location : Location) (name : String) : Except FileError Location :=
  match d.at? (location.step name) with
  | none => .error .notFound
  | some (.file _) => .error .notADirectory
  | some .directory => .ok (location.step name)

/-- Where a path leads. -/
inductive Place
  /-- A name in a directory. -/
  | named (location : Location)
  /-- A name that stands for a directory, by a slash after it or because it is a dot name. -/
  | directory (parent : Location) (name : String)

/-- The place of a path, all directories on the way to it being there. -/
def resolve (d : Disk) (path : String) : Except FileError Place :=
  if path.isEmpty then .error .notFound
  else
    let names := Location.names path
    match names.getLast? with
    | none => .ok (.directory (d.start path) ".")
    | some name =>
      match names.dropLast.foldlM d.descend (d.start path) with
      | .error cause => .error cause
      | .ok parent =>
        if name = "." ∨ name = ".." ∨ path.toList.getLast? = some '/' then .ok (.directory parent name)
        else .ok (.named (parent ++ [name]))

def read (d : Disk) (path : String) : Except FileError ByteArray :=
  match d.resolve path with
  | .error cause => .error cause
  | .ok (.directory parent name) =>
    match d.descend parent name with
    | .error cause => .error cause
    | .ok _ => .error .isADirectory
  | .ok (.named location) =>
    match d.at? location with
    | none => .error .notFound
    | some .directory => .error .isADirectory
    | some (.file bytes) => .ok bytes

def write (d : Disk) (path : String) (bytes : ByteArray) : Except FileError Disk :=
  match d.resolve path with
  | .error cause => .error cause
  | .ok (.directory _ _) => .error .isADirectory
  | .ok (.named location) =>
    match d.at? location with
    | some .directory => .error .isADirectory
    | _ => .ok (d.put location (.file bytes))

instance : Storage (StateM Disk) where
  read path d := (d.read path, d)
  write path bytes d :=
    match d.write path bytes with
    | .ok d' => (.ok (), d')
    | .error cause => (.error cause, d)

/-- The disk with every directory on a path there. -/
def makeDirectories (d : Disk) (path : String) : Disk :=
  ((Location.names path).foldl (fun (d, location) name =>
    let location := location.step name
    (if (d.at? location).isSome then d else d.put location .directory, location)) (d, d.start path)).1

/-- The files under the directory where relative paths start, with the names that lead to them from there. -/
def files (d : Disk) : List (List String × ByteArray) :=
  d.entries.filterMap fun
    | (location, .file bytes) => (d.home.isPrefixOf? location).map fun names => (names, bytes)
    | (_, .directory) => none

end Disk
end Stencil
