import Stencil.Digest.Sha256
import Stencil.Json.Basic
import Stencil.Path
import Stencil.Storage
/-!
# Output — where generated code goes

Every template file has a target of its own in the output directory, or none if there is no directory.  Two files with
one target are refused before anything is written.  A target is written only if it does not hold the very bytes already.
-/
namespace Stencil

/-- A template file and the file that its code goes to, if any. -/
structure PlannedOutput where
  source : String
  target : Option String
deriving Repr, DecidableEq

/-- What became of one generated text. -/
structure OutputRecord where
  source : String
  target : Option String
  /-- The digest of the generated text. -/
  hash : String
  /-- Whether the target was written; one that held the text already is not. -/
  written : Bool
deriving Repr, DecidableEq

inductive OutputError
  | duplicateTarget (target first second : String)
  | write (path : String) (cause : FileError)
deriving Repr, DecidableEq

def OutputError.message : OutputError → String
  | .duplicateTarget target first second => first ++ " and " ++ second ++ " would both be written to " ++ target
  | .write path cause => "Failed to write " ++ path ++ ": " ++ cause.message

/-- Plans one file after another; `claimed` holds the targets taken so far with the files that took them. -/
def planFrom (outDir : Option String) (claimed : List (String × String)) :
    List String → Except OutputError (List PlannedOutput)
  | [] => .ok []
  | source :: rest =>
    match outDir.map fun directory => Path.join directory (Path.phpFileName source) with
    | none => (planFrom outDir claimed rest).map (⟨source, none⟩ :: ·)
    | some target =>
      match claimed.lookup target with
      | some first => .error (.duplicateTarget target first source)
      | none => (planFrom outDir ((target, source) :: claimed) rest).map (⟨source, some target⟩ :: ·)

/-- The targets of a row of template files. -/
def planOutputs (files : List String) (outDir : Option String) : Except OutputError (List PlannedOutput) :=
  planFrom outDir [] files

section

variable {m : Type → Type} [Monad m] [Storage m]

/-- Makes a file hold a text; says whether it had to be written. -/
def writeIfChanged (target text : String) : m (Except OutputError Bool) := do
  match ← Storage.read target with
  | .ok bytes => if bytes.data = text.toUTF8.data then pure (.ok false) else overwrite
  | .error _ => overwrite
where
  overwrite : m (Except OutputError Bool) := do
    match ← Storage.write target text.toUTF8 with
    | .ok () => pure (.ok true)
    | .error cause => pure (.error (.write target cause))

/-- Writes one planned text. -/
def writeOutput (planned : PlannedOutput) (text : String) : m (Except OutputError OutputRecord) := do
  let record (written : Bool) : OutputRecord := ⟨planned.source, planned.target, sourceDigest text, written⟩
  match planned.target with
  | none => pure (.ok (record false))
  | some target => pure ((← writeIfChanged target text).map record)

/-- Writes the planned texts in order, up to the first that cannot be written. -/
def writeOutputs : List PlannedOutput → List String → m (Except OutputError (List OutputRecord))
  | planned :: plan, text :: texts => do
    match ← writeOutput planned text with
    | .error e => pure (.error e)
    | .ok record => pure ((← writeOutputs plan texts).map (record :: ·))
  | _, _ => pure (.ok [])

end

/-- A record in the manifest of a run. -/
def OutputRecord.toJson (r : OutputRecord) : Json :=
  .record [("hash", .str r.hash), ("output", (r.target.map Json.str).getD .null), ("source", .str r.source),
    ("written", .bool r.written)]

end Stencil
