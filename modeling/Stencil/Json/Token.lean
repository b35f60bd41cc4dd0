import Stencil.Json.Basic
import Stencil.Text.Surrogate
/-!
# Token — the lexemes of the data format

A text is read one character at a time by `Scanner.step`, which refuses what no lexeme can hold.  A word runs up to the
next blank, mark or quote and is then a literal name or a number, by the strict grammar: no leading zero, no bare point,
no plus sign.  The scanner keeps the lexemes found so far with the latest first.
-/
namespace Stencil
namespace Json

inductive Token
  | openObject
  | closeObject
  | openArray
  | closeArray
  | colon
  | comma
  | scalar (value : Json)
deriving Repr, Inhabited

/-! ## Numbers -/

/-- The value of a run of decimal digits, read after `acc`. -/
def decimalValue (acc : Nat) (digits : List Char) : Nat :=
  digits.foldl (fun n c => n * 10 + (c.toNat - '0'.toNat)) acc

/-- Splits off the leading run of digits. -/
def spanDigits (s : List Char) : List Char × List Char := (s.takeWhile Char.isDigit, s.dropWhile Char.isDigit)

/-- The digits after the point, if there is one; a point needs a digit after it. -/
def fraction? : List Char → Option (List Char × List Char)
  | '.' :: s => match spanDigits s with
    | ([], _) => none
    | (digits, rest) => some (digits, rest)
  | s => some ([], s)

/-- Reads the digits of an exponent to the end of the text. -/
def exponentDigits? (s : List Char) : Option Nat :=
  match spanDigits s with
  | ([], _) => none
  | (digits, []) => some (decimalValue 0 digits)
  | _ => none

/-- What stands after the `e`: an optional sign and the digits. -/
def exponent? : List Char → Option Int
  | '+' :: s => (exponentDigits? s).map Int.ofNat
  | '-' :: s => (exponentDigits? s).map fun n => -Int.ofNat n
  | s => (exponentDigits? s).map Int.ofNat

/-- Whether a run of digits may stand before the point: not empty, and no zero in front of another digit. -/
def isIntegerPart : List Char → Bool
  | [] => false
  | ['0'] => true
  | c :: _ => c != '0'

/-- A number without its sign. -/
def unsigned? (negative : Bool) (s : List Char) : Option Number := do
  let (integer, rest) := spanDigits s
  guard (isIntegerPart integer)
  let (places, rest) ← fraction? rest
  match rest with
  | [] =>
    let value := decimalValue 0 integer
    if places.isEmpty && !(negative && value == 0) then
      pure (.whole (if negative then -Int.ofNat value else Int.ofNat value))
    else pure (.decimal negative (decimalValue 0 (integer ++ places)) (-Int.ofNat places.length))
  | c :: rest =>
    guard (c == 'e' || c == 'E')
    let exponent ← exponent? rest
    pure (.decimal negative (decimalValue 0 (integer ++ places)) (exponent - Int.ofNat places.length))

/-- The number that a word spells. -/
def number? : List Char → Option Number
  | '-' :: s => unsigned? true s
  | s => unsigned? false s

/-- The value that a word spells. -/
def word? (s : List Char) : Option Json :=
  if s = ['n', 'u', 'l', 'l'] then some .null
  else if s = ['t', 'r', 'u', 'e'] then some (.bool true)
  else if s = ['f', 'a', 'l', 's', 'e'] then some (.bool false)
  else (number? s).map .number

/-! ## Characters -/

def isBlank (c : Char) : Bool := c == ' ' || c == '\t' || c == '\n' || c == '\r'

/-- The mark that a character is on its own. -/
def mark? (c : Char) : Option Token :=
  if c = '\x7b' then some .openObject
  else if c = '\x7d' then some .closeObject
  else if c = '[' then some .openArray
  else if c = ']' then some .closeArray
  else if c = ':' then some .colon
  else if c = ',' then some .comma
  else none

/-- The code unit that an escape of one letter names. -/
def shortEscape? (c : Char) : Option Nat :=
  if c = '"' ∨ c = '\\' ∨ c = '/' then some c.toNat
  else if c = 'b' then some 0x08
  else if c = 'f' then some 0x0C
  else if c = 'n' then some 0x0A
  else if c = 'r' then some 0x0D
  else if c = 't' then some 0x09
  else none

/-- The value of a hexadecimal digit of either case. -/
def hexDigit? (c : Char) : Option Nat :=
  if '0' ≤ c ∧ c ≤ '9' then some (c.toNat - '0'.toNat)
  else if 'a' ≤ c ∧ c ≤ 'f' then some (c.toNat - 'a'.toNat + 10)
  else if 'A' ≤ c ∧ c ≤ 'F' then some (c.toNat - 'A'.toNat + 10)
  else none

/-! ## The scanner -/

/-- What the scanner is inside of.  Characters and code units read so far stand latest first. -/
inductive Scanner.Mode
  | between
  | word (chars : List Char)
  | text (units : List Nat)
  | escape (units : List Nat)
  | hex (units : List Nat) (left : Nat) (value : Nat)

structure Scanner where
  mode : Scanner.Mode := .between
  tokens : List Token := []

namespace Scanner

/-- A character outside words and texts. -/
def between (tokens : List Token) (c : Char) : Scanner :=
  if isBlank c then ⟨.between, tokens⟩
  else if c = '"' then ⟨.text [], tokens⟩
  else match mark? c with
    | some t => ⟨.between, t :: tokens⟩
    | none => ⟨.word [c], tokens⟩

/-- Whether a character ends the word before it. -/
def endsWord (c : Char) : Bool := isBlank c || c == '"' || (mark? c).isSome

def step (s : Scanner) (c : Char) : Option Scanner :=
  match s.mode with
  | .between => some (between s.tokens c)
  | .word chars =>
    if endsWord c then (word? chars.reverse).map fun v => between (.scalar v :: s.tokens) c
    else some ⟨.word (c :: chars), s.tokens⟩
  | .text units =>
    if c = '"' then
      some ⟨.between, .scalar (.text ((Text.ofUnits units.reverse).map String.ofList)) :: s.tokens⟩
    else if c = '\\' then some ⟨.escape units, s.tokens⟩
    else if c.toNat < 0x20 then none
    else some ⟨.text (c.toNat :: units), s.tokens⟩
  | .escape units =>
    if c = 'u' then some ⟨.hex units 3 0, s.tokens⟩
    else (shortEscape? c).map fun unit => ⟨.text (unit :: units), s.tokens⟩
  | .hex units left value =>
    (hexDigit? c).map fun digit => match left with
      | 0 => ⟨.text ((value * 16 + digit) :: units), s.tokens⟩
      | left + 1 => ⟨.hex units left (value * 16 + digit), s.tokens⟩

/-- The lexemes at the end of the text, in order.  A text must not end inside a string. -/
def finish (s : Scanner) : Option (List Token) :=
  match s.mode with
  | .between => some s.tokens.reverse
  | .word chars => (word? chars.reverse).map fun v => (.scalar v :: s.tokens).reverse
  | _ => none

end Scanner

/-- The lexemes of a text. -/
def tokens? (s : List Char) : Option (List Token) := do (← s.foldlM Scanner.step {}).finish

end Json
end Stencil
