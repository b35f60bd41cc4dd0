import Stencil.Bundle
import Stencil.Template
/-!
# Insertion — messages replaced by their texts

A message takes the bundle's text for its id, else the text it was written with.  A file with a plural or select message
is refused as a whole: the first such message in document order is named and nothing is rewritten.
-/
namespace Stencil

inductive Construct
  | plural
  | select
deriving Repr, DecidableEq

def Construct.name : Construct → String
  | .plural => "Plural"
  | .select => "Select"

/-- A message that branches, for which this compiler has no code. -/
structure UnsupportedConstruct where
  messageId : String
  construct : Construct
deriving Repr, DecidableEq

def UnsupportedConstruct.message (u : UnsupportedConstruct) : String :=
  u.construct.name ++ " message '" ++ u.messageId ++ "' is not supported by this backend"

/-- What is unsupported about a node. -/
def Node.unsupported? : Node → Option UnsupportedConstruct
  | .message ⟨id, .plural _ _⟩ => some ⟨id, .plural⟩
  | .message ⟨id, .select _ _⟩ => some ⟨id, .select⟩
  | _ => none

/-- The text that a bundle has for an id, else the given one. -/
def translation (bundle : Option Bundle) (id text : String) : String := (bundle.bind (·.get id)).getD text

/-- A node after insertion. -/
def Node.insertText (bundle : Option Bundle) : Node → Node
  | .message ⟨id, .text text⟩ => .messageText id (translation bundle id text)
  | node => node

/-- Rewrites the messages of a file, or refuses the file; the second part is the file afterwards. -/
def insertMessages (bundle : Option Bundle) (f : TemplateFile) : Except UnsupportedConstruct Unit × TemplateFile :=
  match f.nodes.findSome? Node.unsupported? with
  | some u => (.error u, f)
  | none => (.ok (), f.mapNodes (Node.insertText bundle))

end Stencil
