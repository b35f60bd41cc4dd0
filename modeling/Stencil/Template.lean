/-!
# Template — the tree of a template file

A file holds templates, a template a body of nodes in document order.  A message node stands for text that may be
translated; a message whose text branches on a value is plural or select, and this compiler writes neither.  Inserting
messages turns a message node into its inserted text.
-/
namespace Stencil

/-- One branch of a plural or select message. -/
structure MessageCase where
  key : String
  text : String
deriving Repr, DecidableEq, Inhabited

inductive MessageBody
  | text (text : String)
  | plural (selector : String) (cases : List MessageCase)
  | select (selector : String) (cases : List MessageCase)
deriving Repr, DecidableEq, Inhabited

structure Message where
  id : String
  body : MessageBody
deriving Repr, DecidableEq, Inhabited

inductive Node
  /-- Text that is output as it stands. -/
  | rawText (text : String)
  /-- The value of a data expression, of the caller's data or of injected data. -/
  | print (expression : String) (injected : Bool)
  /-- A message that is not inserted yet. -/
  | message (message : Message)
  /-- The text that was inserted for a message. -/
  | messageText (id : String) (text : String)
  /-- A text for either direction. -/
  | bidi (ltr : String) (rtl : String)
deriving Repr, DecidableEq, Inhabited

structure Template where
  name : String
  body : List Node := []
deriving Repr, DecidableEq, Inhabited

structure TemplateFile where
  path : String
  /-- The dotted namespace that the names of the templates are in. -/
  package : String
  templates : List Template := []
deriving Repr, DecidableEq, Inhabited

/-- A message of plain text. -/
def Node.plainMessage (id text : String) : Node := .message ⟨id, .text text⟩

/-- Whether a node is text that is output as it stands. -/
def Node.isRawText : Node → Bool
  | .rawText _ => true
  | _ => false

namespace TemplateFile

/-- The file with one more template at its end. -/
def withTemplate (f : TemplateFile) (name : String) (body : List Node) : TemplateFile :=
  { f with templates := f.templates ++ [⟨name, body⟩] }

/-- The nodes of all templates in document order. -/
def nodes (f : TemplateFile) : List Node := f.templates.flatMap Template.body

/-- The file with every body rewritten. -/
def mapBodies (g : List Node → List Node) (f : TemplateFile) : TemplateFile :=
  { f with templates := f.templates.map fun t => { t with body := g t.body } }

/-- The file with every node rewritten in its place. -/
def mapNodes (g : Node → Node) (f : TemplateFile) : TemplateFile := f.mapBodies (List.map g)

@[simp] theorem nodes_mapNodes (g : Node → Node) (f : TemplateFile) : (f.mapNodes g).nodes = f.nodes.map g := by
  simp [nodes, mapNodes, mapBodies, List.flatMap_map, List.map_flatMap]

end TemplateFile
end Stencil
