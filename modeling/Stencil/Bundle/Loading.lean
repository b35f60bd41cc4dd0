import Stencil.Bundle
import Stencil.Json.Fields
import Stencil.Json.Parse
import Stencil.Storage
/-!
# Loading — bundles as bundle files give them

A bundle file is a record of a locale and an object of texts by id.  Where an id is given twice the last text stands.
-/
namespace Stencil

inductive BundleLoadError
  | unreadable (cause : FileError)
  | invalidJson
deriving Repr, DecidableEq

def BundleLoadError.message : BundleLoadError → String
  | .unreadable cause => "Failed to read message bundle: " ++ cause.message
  | .invalidJson => "Invalid message bundle JSON: "

namespace Bundle

/-- The texts of an object by id. -/
def entries? : Json → Option (List (String × String))
  | .object members => do
    (← Json.named? members).mapM fun m => (Json.text? m.2).map fun text => (m.1, text)
  | _ => none

def ofJson? (j : Json) : Option Bundle := do
  let fields ← j.fields? false ["locale", "messages"]
  pure (ofList (← fields.required? "locale" Json.text?) (← fields.optional? "messages" [] entries?))

def toJson (b : Bundle) : Json :=
  .record [("locale", .str b.locale), ("messages", .record (b.messages.map fun m => (m.1, .str m.2)))]

/-- The bundle of the text of a bundle file. -/
def ofText (s : String) : Except BundleLoadError Bundle :=
  match (Json.parse? s).bind ofJson? with
  | none => .error .invalidJson
  | some b => .ok b

/-- Loads a bundle from a file. -/
def load {m : Type → Type} [Monad m] [Storage m] (path : String) : m (Except BundleLoadError Bundle) :=
  Storage.load .unreadable ofText path

end Bundle
end Stencil
