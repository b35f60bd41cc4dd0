import Stencil.Text.Split
/-!
# Path — the parts of a path that name the output

Paths are texts with slashes between their components; empty and `.` components say nothing.  The target of a template
file is named by the file's stem, which is its name up to the last point, unless that point is the first character.
-/
namespace Stencil
namespace Path

/-- The components that say something. -/
def components (path : String) : List String :=
  (Text.splitOn '/' path).filter fun c => c != "" && c != "."

/-- The name that a path ends in; a path to a parent ends in none. -/
def fileName? (path : String) : Option String := (components path).getLast?.filter (· != "..")

/-- A name without what follows its last point. -/
def stemOf (name : List Char) : List Char :=
  match (Text.pieces (· == '.') name).dropLast with
  | [] => name
  | [[]] => name
  | parts => ['.'].intercalate parts

def stem (path : String) : String :=
  match fileName? path with
  | some name => String.ofList (stemOf name.toList)
  | none => ""

/-- The name of the file that is generated for a template file. -/
def phpFileName (path : String) : String := stem path ++ ".php"

/-- A name in a directory.  The empty directory is the one that paths start from. -/
def join (directory name : String) : String :=
  if directory.isEmpty then name
  else if directory.toList.getLast? == some '/' then directory ++ name
  else directory ++ "/" ++ name

end Path
end Stencil
