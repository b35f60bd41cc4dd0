import Stencil.Bundle.Loading
import Stencil.Codegen
import Stencil.CommandLine
import Stencil.Json.Render
import Stencil.Options.Loading
import Stencil.Output
import Stencil.Template.Format
/-!
# Compiler — what an invocation does and reports

The steps of a generation are decided in this order: the options, the bundle, the plan of targets, the template files
from left to right, the code, the targets.  The first that fails ends the invocation, so nothing is written unless all
code was generated.  Faulty input leaves with status 1, code that cannot be generated with status 2, and a report is one
Json value on the output.
-/
namespace Stencil

/-- The version that a manifest carries. -/
def engineVersion : String := "1.0.0"

/-- What the reader of a format says about a text that it refuses. -/
class Wording where
  options : String → String
  bundle : String → String
  template : String → String

/-- The reader of this library refuses a text without a word. -/
instance (priority := low) : Wording := ⟨fun _ => "", fun _ => "", fun _ => ""⟩

/-- Why an invocation failed.  The `details` are the words of a reader about a text that it refuses. -/
inductive CompilerError
  | options (cause : OptionsLoadError) (details : String)
  | bundle (cause : BundleLoadError) (details : String)
  | unreadableTemplate (path : String) (cause : FileError)
  | invalidTemplate (path details : String)
  | output (cause : OutputError)
  | pipeline (cause : PipelineError Php.EmitError)
deriving Repr, DecidableEq

namespace CompilerError

def message : CompilerError → String
  | .options cause details => "Failed to load options: " ++ cause.message ++ details
  | .bundle cause details => cause.message ++ details
  | .unreadableTemplate path cause => "Failed to read " ++ path ++ ": " ++ cause.message
  | .invalidTemplate path details => "Invalid template file " ++ path ++ ": " ++ details
  | .output cause => cause.message
  | .pipeline cause => cause.message Php.EmitError.message

def status : CompilerError → UInt32
  | .pipeline _ => 2
  | _ => 1

end CompilerError

/-- What a successful invocation tells. -/
inductive Report
  | manifest (direction : EffectiveDirection) (files : List OutputRecord)
  | direction (direction : EffectiveDirection)
deriving Repr, DecidableEq

def Report.toJson : Report → Json
  | .manifest d files =>
    .record [("direction", d.toJson), ("engineVersion", .str engineVersion),
      ("files", .array (files.map OutputRecord.toJson)), ("success", .bool true)]
  | .direction d => .record [("direction", d.toJson), ("staticValue", .int d.toInt)]

/-- The report of a failed invocation. -/
def CompilerError.toJson (e : CompilerError) : Json :=
  .record [("error", .str e.message), ("success", .bool false)]

namespace Compiler

section

variable [Wording]

def readOptions (text : String) : Except CompilerError Options :=
  (Options.ofText text).mapError fun cause => .options cause (if cause = .invalidJson then Wording.options text else "")

def readBundle (text : String) : Except CompilerError Bundle :=
  (Bundle.ofText text).mapError fun cause => .bundle cause (Wording.bundle text)

def readTemplate (path text : String) : Except CompilerError TemplateFile :=
  match TemplateFile.ofText? text with
  | none => .error (.invalidTemplate path (Wording.template text))
  | some file => .ok file

variable {m : Type → Type} [Monad m] [Storage m]

/-- The options of a run; without an options file, fresh ones. -/
def loadOptions : Option String → ExceptT CompilerError m Options
  | none => pure {}
  | some path => ExceptT.mk (Storage.load (fun cause => .options (.unreadable cause) "") readOptions path)

/-- The bundle of a run, if one is named. -/
def loadBundle : Option String → ExceptT CompilerError m (Option Bundle)
  | none => pure none
  | some path => do
    let bundle ← ExceptT.mk (Storage.load (fun cause => .bundle (.unreadable cause) "") readBundle path)
    pure (some bundle)

/-- A template file. -/
def loadTemplate (path : String) : ExceptT CompilerError m TemplateFile :=
  ExceptT.mk (Storage.load (.unreadableTemplate path) (readTemplate path) path)

/-- Template files in order, up to the first that cannot be read. -/
def loadTemplates : List String → ExceptT CompilerError m (List TemplateFile)
  | [] => pure []
  | path :: paths => do
    let file ← loadTemplate path
    let files ← loadTemplates paths
    pure (file :: files)

/-- Generates code for template files and writes it to the targets. -/
def generate (options : Options) (bundlePath outDir : Option String) (paths : List String) :
    ExceptT CompilerError m Report := do
  let bundle ← loadBundle bundlePath
  let plan ← ExceptT.mk (pure ((planOutputs paths outDir).mapError .output))
  let files ← loadTemplates paths
  let texts ← ExceptT.mk (pure ((Codegen.generate {} options bundle files).mapError .pipeline))
  let records ← ExceptT.mk do pure ((← writeOutputs plan texts).mapError .output)
  let direction := ({} : Resolver).resolve options (bundle.map Bundle.locale)
  pure (.manifest direction records)

/-- Carries out an invocation. -/
def execute (i : Invocation) : ExceptT CompilerError m Report := do
  let options ← loadOptions i.options
  match i.command with
  | .generate bundle outDir files => generate options bundle outDir files
  | .direction locale => pure (.direction (({} : Resolver).resolve options locale))

/-- What a process leaves: its status and its output. -/
structure Exit where
  status : UInt32
  output : String
deriving Repr, DecidableEq

/-- A report on lines of its own, or an error on one line. -/
def Exit.ofResult : Except CompilerError Report → Exit
  | .ok report => ⟨0, report.toJson.pretty ++ "\n"⟩
  | .error e => ⟨e.status, e.toJson.render ++ "\n"⟩

/-- Runs the compiler on its arguments.  Arguments that spell no invocation leave with status 2 and no output. -/
def run (args : List String) : m Exit := do
  match CommandLine.parse? args with
  | none => pure ⟨2, ""⟩
  | some i => pure (Exit.ofResult (← (execute i).run))

end

end Compiler
end Stencil
