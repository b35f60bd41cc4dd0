import Stencil.Json.Token
/-!
# Parse — a value from its lexemes

`State.step` takes one lexeme to the next state, or refuses it.  The state is what is due next and the arrays and objects
that are still open, innermost first, so a text of any depth is read by one fold.  `parse?` gives a value exactly when
the text is one value with nothing but blanks around it.
-/
namespace Stencil
namespace Json

/-- An array or object that is still open, with what it holds so far, latest first. -/
inductive Frame
  | items (read : List Json)
  | member (read : List (Option String × Json)) (key : Option String)

/-- What is due next. -/
inductive State
  /-- A value. -/
  | value (opened : List Frame)
  /-- The first item of an array, or its end. -/
  | firstItem (opened : List Frame)
  /-- The first name of an object, or its end. -/
  | firstKey (opened : List Frame)
  /-- The name of a further member. -/
  | nextKey (opened : List Frame) (read : List (Option String × Json))
  /-- The colon after a name. -/
  | colon (opened : List Frame) (read : List (Option String × Json)) (key : Option String)
  /-- What follows a value in the innermost open array or object, or the end of the text. -/
  | after (done : Json) (opened : List Frame)

namespace State

/-- The first lexeme of a value. -/
def begin (opened : List Frame) : Token → Option State
  | .scalar v => some (.after v opened)
  | .openArray => some (.firstItem opened)
  | .openObject => some (.firstKey opened)
  | _ => none

def step : State → Token → Option State
  | .value opened, t => begin opened t
  | .firstItem opened, .closeArray => some (.after (.array []) opened)
  | .firstItem opened, t => begin (.items [] :: opened) t
  | .firstKey opened, .closeObject => some (.after (.object []) opened)
  | .firstKey opened, .scalar (.text key) => some (.colon opened [] key)
  | .nextKey opened read, .scalar (.text key) => some (.colon opened read key)
  | .colon opened read key, .colon => some (.value (.member read key :: opened))
  | .after v (.items read :: opened), .comma => some (.value (.items (v :: read) :: opened))
  | .after v (.items read :: opened), .closeArray => some (.after (.array (v :: read).reverse) opened)
  | .after v (.member read key :: opened), .comma => some (.nextKey opened ((key, v) :: read))
  | .after v (.member read key :: opened), .closeObject =>
    some (.after (.object ((key, v) :: read).reverse) opened)
  | _, _ => none

/-- The value that has been read, if nothing is left open. -/
def result? : State → Option Json
  | .after v [] => some v
  | _ => none

end State

/-- The value of a sequence of lexemes. -/
def ofTokens? (ts : List Token) : Option Json := do (← ts.foldlM State.step (.value [])).result?

/-- The value that a text is. -/
def parse? (s : String) : Option Json := do ofTokens? (← tokens? s.toList)

end Json
end Stencil
