import Stencil.Json.Basic
/-!
# Fields — records, kinds and variants read from a value

A record is an object, whose members may stand in any order beside members it does not know, or an array of its field
values in the declared order, from which fields at the end may be missing.  `fields?` finds the declared fields of either
and refuses one that is given twice.  A tagged record names its kind first: `tagged?` splits the kind off, wherever in the
object it stands, and leaves the record.  As the kind may come last, a tagged record is kept as a whole before it is
read, and what is kept must be sound and may not be nested too far.  A variant is a name, alone or as the one member of an
object.
-/
namespace Stencil
namespace Json

/-! ## Plain values -/

def text? : Json → Option String
  | .text value => value
  | _ => none

def bool? : Json → Option Bool
  | .bool value => some value
  | _ => none

/-- A whole number of at most thirty-two bits with its sign. -/
def int32? : Json → Option Int
  | .number (.whole value) => if -2147483648 ≤ value ∧ value ≤ 2147483647 then some value else none
  | _ => none

def list? {α : Type} (read : Json → Option α) : Json → Option (List α)
  | .array items => items.mapM read
  | _ => none

/-! ## Records -/

/-- The declared fields that a record gives. -/
structure Fields where
  entries : List (String × Json)
deriving Inhabited

namespace Fields

def find? (f : Fields) (name : String) : Option Json := f.entries.lookup name

/-- A field that must be given. -/
def required? {α : Type} (f : Fields) (name : String) (read : Json → Option α) : Option α :=
  match f.find? name with
  | some j => read j
  | none => none

/-- A field with a default.  One that is given is read: a bad value is refused, not replaced. -/
def optional? {α : Type} (f : Fields) (name : String) (default : α) (read : Json → Option α) : Option α :=
  match f.find? name with
  | some j => read j
  | none => some default

end Fields

/-- The members of an object under their names, if all names are texts that a `String` holds. -/
def named? (members : List (Option String × Json)) : Option (List (String × Json)) :=
  members.mapM fun m => m.1.map fun name => (name, m.2)

/-- The declared fields of a record.  In a `closed` record an undeclared name is refused, else it is passed over. -/
def fields? (closed : Bool) (names : List String) : Json → Option Fields
  | .array items => if items.length ≤ names.length then some ⟨names.zip items⟩ else none
  | .object members =>
    match named? members with
    | none => none
    | some members =>
      let known := members.filter fun m => names.contains m.1
      if (known.map Prod.fst).Nodup ∧ (closed → known.length = members.length) then some ⟨known⟩ else none
  | _ => none

/-! ## Tagged records -/

/-- The kind that a tag names.  Where `numbered` holds, a kind may also be given by its place among the kinds. -/
def kind? (numbered : Bool) (kinds : List String) : Json → Option String
  | .text (some name) => if kinds.contains name then some name else none
  | .number (.whole (.ofNat place)) => if numbered then kinds[place]? else none
  | _ => none

/-- How many arrays and objects of a text may stand within each other where a value is kept before it is read. -/
def nestingLimit : Nat := 127

/-- The kind of a tagged record and the record without it.  The whole value must be sound, also in the members that the
record passes over, and it must stay within the limit together with the arrays and objects around it. -/
def tagged? (around : Nat) (numbered : Bool) (kinds : List String) (j : Json) : Option (String × Json) :=
  if j.isSound && around + j.height ≤ nestingLimit then
    match j with
    | .array (tag :: rest) => (kind? numbered kinds tag).map fun kind => (kind, .array rest)
    | .object members =>
      match members.partition fun m => m.1 == some "kind" with
      | ([(_, tag)], rest) => (kind? numbered kinds tag).map fun kind => (kind, .object rest)
      | _ => none
    | _ => none
  else none

/-! ## Variants -/

/-- The name of a variant and what it carries. -/
def variant? : Json → Option (String × Json)
  | .text (some name) => some (name, .null)
  | .object [(some name, payload)] => some (name, payload)
  | _ => none

end Json
end Stencil
