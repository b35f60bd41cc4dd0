import Stencil.Json.Fields
/-!
# Direction — which way text runs

A `Direction` is left to right or right to left.  A run of the compiler has an `EffectiveDirection`: one direction fixed
for all of it, or the choice left to the generated code.  Either has a number, `1`, `-1` or `0`, and a form in Json.
-/
namespace Stencil

inductive Direction
  | ltr
  | rtl
deriving Repr, DecidableEq, Inhabited

namespace Direction

def toInt : Direction → Int
  | .ltr => 1
  | .rtl => -1

def name : Direction → String
  | .ltr => "ltr"
  | .rtl => "rtl"

def toJson (d : Direction) : Json := .str d.name

def ofJson? (j : Json) : Option Direction :=
  match j.variant? with
  | some ("ltr", .null) => some .ltr
  | some ("rtl", .null) => some .rtl
  | _ => none

/-- Of the texts for both directions, the one for this. -/
def choose {α : Type} (d : Direction) (ltr rtl : α) : α :=
  match d with
  | .ltr => ltr
  | .rtl => rtl

end Direction

inductive EffectiveDirection
  | fixed (direction : Direction)
  | deferred
deriving Repr, DecidableEq, Inhabited

namespace EffectiveDirection

def toInt : EffectiveDirection → Int
  | .fixed d => d.toInt
  | .deferred => 0

def fixed? : EffectiveDirection → Option Direction
  | .fixed d => some d
  | .deferred => none

def toJson : EffectiveDirection → Json
  | .fixed d => .record [("fixed", d.toJson)]
  | .deferred => .str "defer_to_runtime"

def ofJson? (j : Json) : Option EffectiveDirection :=
  match j.variant? with
  | some ("fixed", payload) => (Direction.ofJson? payload).map .fixed
  | some ("defer_to_runtime", .null) => some .deferred
  | _ => none

end EffectiveDirection
end Stencil
