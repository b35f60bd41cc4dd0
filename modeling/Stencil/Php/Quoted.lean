/-!
# Quoted — single-quoted literals

Between single quotes a backslash stands before every quote and every backslash of the text, and nothing else is changed,
so that no text ends its literal early.
-/
namespace Stencil
namespace Php

/-- The inside of a literal. -/
def escape : List Char → List Char
  | [] => []
  | c :: cs => if c = '\\' ∨ c = '\'' then '\\' :: c :: escape cs else c :: escape cs

/-- The literal of a text. -/
def quote (s : String) : String := String.ofList ('\'' :: (escape s.toList ++ ['\'']))

end Php
end Stencil
