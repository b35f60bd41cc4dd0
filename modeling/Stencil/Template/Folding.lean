import Stencil.Direction
import Stencil.Template
/-!
# Folding — nodes for both directions under one that is fixed

Where the direction of the run is fixed, a node with a text for either direction becomes the text for that direction.
Where the choice is left to the generated code nothing changes.
-/
namespace Stencil

/-- A node under a fixed direction. -/
def Node.fold (d : Direction) : Node → Node
  | .bidi ltr rtl => .rawText (d.choose ltr rtl)
  | node => node

/-- Folds the nodes of a file as far as the direction is known. -/
def foldDirection (direction : EffectiveDirection) (f : TemplateFile) : TemplateFile :=
  match direction.fixed? with
  | some d => f.mapNodes (Node.fold d)
  | none => f

end Stencil
