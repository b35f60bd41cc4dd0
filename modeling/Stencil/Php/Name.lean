import Stencil.Php.Program
import Stencil.Text.Split
/-!
# Name — functions and variables in the generated code

A template's function is named by the parts of its namespace and its own name, joined by underscores, with every other
character than an ASCII letter, a digit or an underscore replaced by an underscore.  A variable for an external message
carries the id, in which every character but ASCII letters and digits is written as its code point between underscores.
-/
namespace Stencil
namespace Php

/-- A name with every character that an identifier cannot hold replaced. -/
def identifier (s : List Char) : List Char := s.map fun c => if c.isAlphanum || c == '_' then c else '_'

/-- The function of a template.  Empty parts of the namespace, and an empty name, are left out. -/
def functionName (package template : String) : String :=
  let parts := (Text.pieces (· == '.') package.toList ++ [template.toList]).filter fun p => !p.isEmpty
  String.ofList (['_'].intercalate (parts.map identifier))

/-- A character of a message id inside a variable. -/
def idChar (c : Char) : List Char :=
  if c.isAlphanum then [c] else '_' :: (Nat.toDigits 16 c.toNat ++ ['_'])

/-- The variable of an external message. -/
def externalName (id : String) : String := "$MSG_EXTERNAL_" ++ String.ofList (id.toList.flatMap idChar)

/-- The variable of a message by number. -/
def unnamedName (number : Nat) : String := "$MSG_UNNAMED_" ++ toString number

def Variable.render : Variable → String
  | .unnamed number => unnamedName number
  | .external id => externalName id

end Php
end Stencil
