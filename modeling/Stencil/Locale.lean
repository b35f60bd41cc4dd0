import Stencil.Direction
import Stencil.Text.Split
/-!
# Locale — the direction of the writing that a locale names

A locale is a row of subtags between hyphens and underscores, empty ones passed over, ASCII letters taken in lower case:
a language, at most three extended-language subtags of three letters, and then possibly a script of four letters.  A
script decides the direction; without one the language does.  There is no direction exactly when there is no subtag
(`direction_eq_none_iff`).
-/
namespace Stencil
namespace Locale

/-- Languages written from right to left when no script is named. -/
def rtlLanguages : List String :=
  ["ar", "ckb", "dv", "fa", "he", "iw", "ji", "ks", "ku", "ps", "sd", "ug", "ur", "yi"]

/-- Scripts written from right to left. -/
def rtlScripts : List String := ["arab", "hebr", "thaa", "nkoo", "syrc", "adlm", "rohg"]

def isSeparator (c : Char) : Bool := c == '-' || c == '_'

/-- The subtags of a locale in lower case. -/
def subtags (locale : List Char) : List (List Char) :=
  ((Text.pieces isSeparator locale).filter fun p => !p.isEmpty).map fun p => p.map Char.toLower

/-- Whether a subtag is `n` ASCII letters. -/
def isLetters (n : Nat) (subtag : List Char) : Bool := subtag.length == n && subtag.all Char.isAlpha

/-- The subtags after at most `n` leading ones of three letters. -/
def dropExtended : Nat → List (List Char) → List (List Char)
  | 0, rest => rest
  | _, [] => []
  | n + 1, subtag :: rest => if isLetters 3 subtag then dropExtended n rest else subtag :: rest

/-- The script among the subtags after the language. -/
def script? (rest : List (List Char)) : Option (List Char) :=
  (dropExtended 3 rest).head?.filter (isLetters 4)

def isRtl (language : List Char) (rest : List (List Char)) : Bool :=
  match script? rest with
  | some script => rtlScripts.contains (String.ofList script)
  | none => rtlLanguages.contains (String.ofList language)

/-- The direction of a row of subtags. -/
def direction : List (List Char) → Option Direction
  | [] => none
  | language :: rest => some (if isRtl language rest then .rtl else .ltr)

theorem direction_eq_none_iff (tags : List (List Char)) : direction tags = none ↔ tags = [] := by
  cases tags <;> simp [direction]

end Locale

/-- The direction of the writing that a locale names, if it has a subtag. -/
def localeDirection (locale : String) : Option Direction := Locale.direction (Locale.subtags locale.toList)

end Stencil
