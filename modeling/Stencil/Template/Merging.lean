import Stencil.Template
/-!
# Merging — bodies with as few raw texts as can be

Raw texts that follow each other become one and empty ones go, so that a merged body has no empty raw text and no two in
a row.  The body is merged from its end, and `consText` keeps a merged body merged.
-/
namespace Stencil

/-- Puts a raw text in front of a merged body. -/
def consText (text : String) : List Node → List Node
  | .rawText next :: rest => .rawText (text ++ next) :: rest
  | rest => if text.isEmpty then rest else .rawText text :: rest

/-- The body with adjacent raw texts joined and empty ones dropped. -/
def mergeText : List Node → List Node
  | [] => []
  | .rawText text :: rest => consText text (mergeText rest)
  | node :: rest => node :: mergeText rest

/-- Simplifies every body of a file. -/
def simplify (f : TemplateFile) : TemplateFile := f.mapBodies mergeText

end Stencil
