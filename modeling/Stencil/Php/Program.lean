/-!
# Program — the generated code before it is text

A file is one function for each template.  A function defines the variables of its messages and then appends expressions
to its output, in the order of the template's nodes.
-/
namespace Stencil
namespace Php

/-- Where a data expression starts. -/
inductive Root
  | data
  | injected
deriving Repr, DecidableEq

inductive Variable
  /-- A message definition by its number in the file, counted from one. -/
  | unnamed (number : Nat)
  /-- The definition shared by all uses of a message id. -/
  | external (id : String)
deriving Repr, DecidableEq

inductive Expression
  | literal (text : String)
  | use (name : Variable)
  /-- A value of the data, escaped for the page. -/
  | escaped (root : Root) (keys : List String)
  /-- The one or the other literal, as the direction is found to be when the code runs. -/
  | byDirection (ltr rtl : String)
deriving Repr, DecidableEq

structure Definition where
  target : Variable
  text : String
deriving Repr, DecidableEq

structure Function where
  name : String
  definitions : List Definition
  appended : List Expression
deriving Repr, DecidableEq

structure File where
  /-- The template file that the code was generated from. -/
  origin : String
  /-- Whether the functions take injected data. -/
  takesInjected : Bool
  functions : List Function
deriving Repr, DecidableEq

end Php
end Stencil
