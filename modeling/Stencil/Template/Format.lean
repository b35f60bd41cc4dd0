import Stencil.Template
import Stencil.Json.Fields
import Stencil.Json.Parse
/-!
# Format — templates as Json

The parser of the template language hands its trees over in this form.  Writing gives every field; reading lets the
fields with a default be absent.  A node and the body of a message are records tagged with their kind, and the body of a
message inside a node may give its kind by number.  Each part is read with the number of arrays and objects `around` it,
which counts where a tagged record is nested far.
-/
namespace Stencil

def MessageCase.toJson (c : MessageCase) : Json := .record [("key", .str c.key), ("text", .str c.text)]

def MessageCase.ofJson? (j : Json) : Option MessageCase := do
  let fields ← j.fields? false ["key", "text"]
  pure { key := ← fields.required? "key" Json.text?, text := ← fields.required? "text" Json.text? }

def MessageBody.toJson : MessageBody → Json
  | .text s => .record [("kind", .str "text"), ("text", .str s)]
  | .plural selector cases =>
    .record [("kind", .str "plural"), ("var", .str selector), ("cases", .array (cases.map MessageCase.toJson))]
  | .select selector cases =>
    .record [("kind", .str "select"), ("var", .str selector), ("cases", .array (cases.map MessageCase.toJson))]

/-- The selector and the branches of a message that has them. -/
def MessageBody.branches? (j : Json) : Option (String × List MessageCase) := do
  let fields ← j.fields? false ["var", "cases"]
  pure (← fields.required? "var" Json.text?, ← fields.required? "cases" (Json.list? MessageCase.ofJson?))

def MessageBody.ofJsonWithin? (around : Nat) (numbered : Bool) (j : Json) : Option MessageBody := do
  match ← j.tagged? around numbered ["text", "plural", "select"] with
  | ("text", rest) =>
    let fields ← rest.fields? false ["text"]
    pure (.text (← fields.required? "text" Json.text?))
  | ("plural", rest) => (branches? rest).map fun b => .plural b.1 b.2
  | ("select", rest) => (branches? rest).map fun b => .select b.1 b.2
  | _ => none

def MessageBody.ofJson? (numbered : Bool) (j : Json) : Option MessageBody := ofJsonWithin? 0 numbered j

def Message.members (m : Message) : List (String × Json) := [("id", .str m.id), ("body", m.body.toJson)]

def Message.toJson (m : Message) : Json := .record m.members

def Message.ofJsonWithin? (around : Nat) (numbered : Bool) (j : Json) : Option Message := do
  let fields ← j.fields? false ["id", "body"]
  pure {
    id := ← fields.required? "id" Json.text?
    body := ← fields.required? "body" (MessageBody.ofJsonWithin? (around + 1) numbered) }

def Message.ofJson? (numbered : Bool) (j : Json) : Option Message := ofJsonWithin? 0 numbered j

def Node.toJson : Node → Json
  | .rawText text => .record [("kind", .str "raw_text"), ("text", .str text)]
  | .print expression injected =>
    .record [("kind", .str "print"), ("expr", .str expression), ("injected", .bool injected)]
  | .message m => .record (("kind", .str "msg") :: m.members)
  | .messageText id text => .record [("kind", .str "msg_text"), ("id", .str id), ("text", .str text)]
  | .bidi ltr rtl => .record [("kind", .str "bidi_dir"), ("ltr", .str ltr), ("rtl", .str rtl)]

def Node.ofJsonWithin? (around : Nat) (j : Json) : Option Node := do
  match ← j.tagged? around false ["raw_text", "print", "msg", "msg_text", "bidi_dir"] with
  | ("raw_text", rest) =>
    let fields ← rest.fields? false ["text"]
    pure (.rawText (← fields.required? "text" Json.text?))
  | ("print", rest) =>
    let fields ← rest.fields? false ["expr", "injected"]
    pure (.print (← fields.required? "expr" Json.text?) (← fields.optional? "injected" false Json.bool?))
  | ("msg", rest) => (Message.ofJsonWithin? around true rest).map .message
  | ("msg_text", rest) =>
    let fields ← rest.fields? false ["id", "text"]
    pure (.messageText (← fields.required? "id" Json.text?) (← fields.required? "text" Json.text?))
  | ("bidi_dir", rest) =>
    let fields ← rest.fields? false ["ltr", "rtl"]
    pure (.bidi (← fields.required? "ltr" Json.text?) (← fields.required? "rtl" Json.text?))
  | _ => none

def Node.ofJson? (j : Json) : Option Node := ofJsonWithin? 0 j

def Template.toJson (t : Template) : Json :=
  .record [("name", .str t.name), ("body", .array (t.body.map Node.toJson))]

def Template.ofJsonWithin? (around : Nat) (j : Json) : Option Template := do
  let fields ← j.fields? false ["name", "body"]
  pure {
    name := ← fields.required? "name" Json.text?
    body := ← fields.optional? "body" [] (Json.list? (Node.ofJsonWithin? (around + 2))) }

def Template.ofJson? (j : Json) : Option Template := ofJsonWithin? 0 j

namespace TemplateFile

def toJson (f : TemplateFile) : Json :=
  .record [("path", .str f.path), ("namespace", .str f.package), ("templates", .array (f.templates.map Template.toJson))]

def ofJson? (j : Json) : Option TemplateFile := do
  let fields ← j.fields? false ["path", "namespace", "templates"]
  pure {
    path := ← fields.required? "path" Json.text?
    package := ← fields.required? "namespace" Json.text?
    templates := ← fields.optional? "templates" [] (Json.list? (Template.ofJsonWithin? 2)) }

/-- The template file that a text gives. -/
def ofText? (s : String) : Option TemplateFile := (Json.parse? s).bind ofJson?

end TemplateFile
end Stencil
