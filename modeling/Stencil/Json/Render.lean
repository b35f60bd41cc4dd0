import Stencil.Json.Basic
/-!
# Render — the text of a value

Two layouts: `render` puts all on one line with no blank, `pretty` gives every item and member a line of its own, two
blanks further in than what holds it.  Both quote texts alike: a quote, a backslash and the control characters are
escaped, with a letter where the format has one and four lower-case hexadecimal digits elsewhere; everything else stands
as it is.
-/
namespace Stencil
namespace Json

/-- Four hexadecimal digits. -/
def hexQuad (n : Nat) : List Char :=
  [n / 4096 % 16, n / 256 % 16, n / 16 % 16, n % 16].map Nat.digitChar

/-- A character inside a quoted text. -/
def quoteChar (c : Char) : List Char :=
  if c = '"' then ['\\', '"']
  else if c = '\\' then ['\\', '\\']
  else if c = '\n' then ['\\', 'n']
  else if c = '\r' then ['\\', 'r']
  else if c = '\t' then ['\\', 't']
  else if c = '\x08' then ['\\', 'b']
  else if c = '\x0c' then ['\\', 'f']
  else if c.toNat < 0x20 then '\\' :: 'u' :: hexQuad c.toNat
  else [c]

/-- A text between quotes. -/
def quote (s : String) : String := String.ofList ('"' :: (s.toList.flatMap quoteChar ++ ['"']))

/-- A text that names half of a surrogate pair is written as such a half. -/
def quoteText : Option String → String
  | some s => quote s
  | none => "\"\\ud800\""

def renderNumber : Number → String
  | .whole value => toString value
  | .decimal negative digits exponent =>
    (if negative then "-" else "") ++ toString digits ++ "e" ++ toString exponent

def renderBool (b : Bool) : String := if b then "true" else "false"

mutual

/-- The value on one line. -/
def render : Json → String
  | .null => "null"
  | .bool value => renderBool value
  | .number value => renderNumber value
  | .text value => quoteText value
  | .array [] => "[]"
  | .array (j :: js) => "[" ++ render j ++ renderItems js ++ "]"
  | .object [] => "\x7b\x7d"
  | .object ((key, j) :: ms) => "\x7b" ++ quoteText key ++ ":" ++ render j ++ renderMembers ms ++ "\x7d"

/-- The items after the first. -/
def renderItems : List Json → String
  | [] => ""
  | j :: js => "," ++ render j ++ renderItems js

/-- The members after the first. -/
def renderMembers : List (Option String × Json) → String
  | [] => ""
  | (key, j) :: ms => "," ++ quoteText key ++ ":" ++ render j ++ renderMembers ms

end

/-- The start of a line at the given depth. -/
def newline (depth : Nat) : String := String.ofList ('\n' :: List.replicate (2 * depth) ' ')

mutual

/-- The value on lines of its own, its first line begun at the given depth. -/
def prettyAt (depth : Nat) : Json → String
  | .null => "null"
  | .bool value => renderBool value
  | .number value => renderNumber value
  | .text value => quoteText value
  | .array [] => "[]"
  | .array (j :: js) =>
    "[" ++ newline (depth + 1) ++ prettyAt (depth + 1) j ++ prettyItems (depth + 1) js ++ newline depth ++ "]"
  | .object [] => "\x7b\x7d"
  | .object ((key, j) :: ms) =>
    "\x7b" ++ newline (depth + 1) ++ quoteText key ++ ": " ++ prettyAt (depth + 1) j ++
      prettyMembers (depth + 1) ms ++ newline depth ++ "\x7d"

def prettyItems (depth : Nat) : List Json → String
  | [] => ""
  | j :: js => "," ++ newline depth ++ prettyAt depth j ++ prettyItems depth js

def prettyMembers (depth : Nat) : List (Option String × Json) → String
  | [] => ""
  | (key, j) :: ms =>
    "," ++ newline depth ++ quoteText key ++ ": " ++ prettyAt depth j ++ prettyMembers depth ms

end

/-- The value on lines of its own. -/
def pretty (j : Json) : String := prettyAt 0 j

end Json
end Stencil
