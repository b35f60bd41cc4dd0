import Stencil.Json.Number
/-!
# Json — the values of the data format

A `Json` value keeps what a text says and no more: members stay in their order with repeated names kept, a whole
number is told apart from one written with a fraction or an exponent, and a text that no `String` can hold (it names half
of a surrogate pair) is `none`.  `Json.isSound` says that a value holds no such text and no number that reads beyond the
doubles, and `Json.height` how far arrays and objects stand within each other.
-/
namespace Stencil

inductive Json
  | null
  | bool (value : Bool)
  | number (value : Number)
  | text (value : Option String)
  | array (items : List Json)
  | object (members : List (Option String × Json))
deriving Repr, Inhabited

namespace Json

/-- The value of a string. -/
def str (s : String) : Json := .text (some s)

/-- The value of a whole number. -/
def int (i : Int) : Json := .number (.whole i)

/-- The object with the given members. -/
def record (members : List (String × Json)) : Json := .object (members.map fun m => (some m.1, m.2))

mutual

/-- Whether every text in the value is one that a `String` holds and every number reads as a finite double. -/
def isSound : Json → Bool
  | .null => true
  | .bool _ => true
  | .number value => value.isFinite
  | .text value => value.isSome
  | .array items => itemsSound items
  | .object members => membersSound members

def itemsSound : List Json → Bool
  | [] => true
  | j :: js => isSound j && itemsSound js

def membersSound : List (Option String × Json) → Bool
  | [] => true
  | (key, j) :: ms => key.isSome && isSound j && membersSound ms

end

mutual

/-- How many arrays and objects stand within each other. -/
def height : Json → Nat
  | .array items => itemsHeight items + 1
  | .object members => membersHeight members + 1
  | _ => 0

def itemsHeight : List Json → Nat
  | [] => 0
  | j :: js => max (height j) (itemsHeight js)

def membersHeight : List (Option String × Json) → Nat
  | [] => 0
  | (_, j) :: ms => max (height j) (membersHeight ms)

end

end Json
end Stencil
