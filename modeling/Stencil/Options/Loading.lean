import Stencil.Options
import Stencil.Json.Parse
import Stencil.Storage
/-!
# Loading — options as an options file gives them

An options file is a closed record of five fields, all with defaults, with the static direction as a number.  Its fields
are applied to fresh options one after another; `OptionsFile.toOptions` fails as the first refused setting does.
-/
namespace Stencil

/-- What an options file says. -/
structure OptionsFile where
  usesInjectedData : Bool := false
  generatesMessageDefs : Bool := false
  messagesAreExternal : Bool := false
  staticDirection : Int := 0
  useRuntimeDirectionDetection : Bool := false
deriving Repr, DecidableEq

namespace OptionsFile

def ofJson? (j : Json) : Option OptionsFile := do
  let fields ← j.fields? true
    ["usesInjectedData", "generatesMessageDefs", "messagesAreExternal", "staticDirection",
      "useRuntimeDirectionDetection"]
  pure {
    usesInjectedData := ← fields.optional? "usesInjectedData" false Json.bool?
    generatesMessageDefs := ← fields.optional? "generatesMessageDefs" false Json.bool?
    messagesAreExternal := ← fields.optional? "messagesAreExternal" false Json.bool?
    staticDirection := ← fields.optional? "staticDirection" 0 Json.int32?
    useRuntimeDirectionDetection := ← fields.optional? "useRuntimeDirectionDetection" false Json.bool? }

/-- The changes that the file asks for, in the order in which they are made. -/
def settings (f : OptionsFile) : List Setting :=
  [.usesInjectedData f.usesInjectedData, .generatesMessageDefs f.generatesMessageDefs,
    .messagesAreExternal f.messagesAreExternal, .staticDirection f.staticDirection,
    .useRuntimeDirectionDetection f.useRuntimeDirectionDetection]

def toOptions (f : OptionsFile) : Except ConfigurationError Options := f.settings.foldlM Options.set {}

end OptionsFile

inductive OptionsLoadError
  | unreadable (cause : FileError)
  | invalidJson
  | invalid (cause : ConfigurationError)
deriving Repr, DecidableEq

def OptionsLoadError.message : OptionsLoadError → String
  | .unreadable cause => "Failed to read options file: " ++ cause.message
  | .invalidJson => "Invalid options JSON: "
  | .invalid cause => "Invalid options: " ++ cause.message

namespace Options

/-- The options of a value from an options file. -/
def ofJson (j : Json) : Except OptionsLoadError Options :=
  match OptionsFile.ofJson? j with
  | none => .error .invalidJson
  | some file => file.toOptions.mapError .invalid

/-- The options of the text of an options file. -/
def ofText (s : String) : Except OptionsLoadError Options :=
  match Json.parse? s with
  | none => .error .invalidJson
  | some j => ofJson j

/-- Options as they are saved: the static direction under its name. -/
def toJson (o : Options) : Json :=
  .record [
    ("usesInjectedData", .bool o.usesInjectedData),
    ("generatesMessageDefs", .bool o.generatesMessageDefs),
    ("messagesAreExternal", .bool o.messagesAreExternal),
    ("staticDirection", o.staticDirection.toJson),
    ("useRuntimeDirectionDetection", .bool o.useRuntimeDirectionDetection)]

/-- Loads options from a file. -/
def load {m : Type → Type} [Monad m] [Storage m] (path : String) : m (Except OptionsLoadError Options) :=
  Storage.load .unreadable ofText path

end Options
end Stencil
