import Stencil.Proofs.Codegen.Outcome
import Stencil.Proofs.Compiler.Loading
import Stencil.Proofs.Digest.Sha256
import Stencil.Proofs.Json.Reading
import Stencil.Proofs.Output.Writing
/-!
# Report — what an invocation prints, spelled out

A failed invocation prints one line that tells the error, a successful one an object of named members.  Here is what they
hold, down to the words: `CompilerError.Says` has the text of every error, `EntryTold` the members of a file in the
manifest with the digest of the standard, `Told` the forms of a direction.  The compiler prints just that
(`failed_ofResult`, `directionTold_iff`, `manifestTold_ofResult`).
-/
namespace Stencil

/-! ## Words -/

inductive FileError.Says : FileError → String → Prop
  | notFound : Says .notFound "No such file or directory (os error 2)"
  | notADirectory : Says .notADirectory "Not a directory (os error 20)"
  | isADirectory : Says .isADirectory "Is a directory (os error 21)"
  | notUtf8 : Says .notUtf8 "stream did not contain valid UTF-8"
  | refused (details : String) : Says (.refused details) details

theorem FileError.says_iff {cause : FileError} {text : String} : cause.Says text ↔ text = cause.message := by
  constructor
  · intro h
    cases h <;> rfl
  · rintro rfl
    cases cause <;> constructor

inductive ConfigurationError.Says : ConfigurationError → String → Prop
  | invalidStaticDirection (value : Int) : Says (.invalidStaticDirection value)
      ("Static direction must be 1 (ltr), -1 (rtl) or 0 (unspecified), got " ++ toString value)
  | conflictingDirectionSources : Says .conflictingDirectionSources
      "Must not specify both a static direction and runtime direction detection"
  | runtimeDirectionWithoutMessageDefs : Says .runtimeDirectionWithoutMessageDefs
      "Runtime direction detection requires message definitions to be generated"

theorem ConfigurationError.says_iff {cause : ConfigurationError} {text : String} :
    cause.Says text ↔ text = cause.message := by
  constructor
  · intro h
    cases h <;> rfl
  · rintro rfl
    cases cause <;> constructor

inductive UnsupportedConstruct.Says : UnsupportedConstruct → String → Prop
  | plural (id : String) : Says ⟨id, .plural⟩ ("Plural message '" ++ id ++ "' is not supported by this backend")
  | select (id : String) : Says ⟨id, .select⟩ ("Select message '" ++ id ++ "' is not supported by this backend")

theorem UnsupportedConstruct.says_iff {cause : UnsupportedConstruct} {text : String} :
    cause.Says text ↔ text = cause.message := by
  have hplural : ∀ id, (⟨id, .plural⟩ : UnsupportedConstruct).message = "Plural message '" ++ id ++ _ :=
    fun id => congrArg (· ++ id ++ _) (by decide : "Plural" ++ " message '" = "Plural message '")
  have hselect : ∀ id, (⟨id, .select⟩ : UnsupportedConstruct).message = "Select message '" ++ id ++ _ :=
    fun id => congrArg (· ++ id ++ _) (by decide : "Select" ++ " message '" = "Select message '")
  constructor
  · rintro (id | id)
    · exact (hplural id).symm
    · exact (hselect id).symm
  · rintro rfl
    obtain ⟨id, _ | _⟩ := cause
    · exact hplural id ▸ .plural id
    · exact hselect id ▸ .select id

inductive Php.EmitError.Says : Php.EmitError → String → Prop
  | injectedDataDisabled (function expression : String) : Says (.injectedDataDisabled function expression)
      ("Template '" ++ function ++ "' reads injected data '" ++ expression ++ "' but injected data is disabled")
  | uninsertedMessage (id : String) : Says (.uninsertedMessage id) ("Message '" ++ id ++ "' reached emission untranslated")
  | invalidExpression (expression : String) : Says (.invalidExpression expression)
      ("Invalid data expression '" ++ expression ++ "'")
  | conflictingMessageText (id : String) : Says (.conflictingMessageText id)
      ("External message '" ++ id ++ "' is defined with two different texts")

theorem Php.EmitError.says_iff {cause : Php.EmitError} {text : String} : cause.Says text ↔ text = cause.message := by
  constructor
  · intro h
    cases h <;> rfl
  · rintro rfl
    cases cause <;> constructor

/-- **What an error says.**  The words of a reader stand behind those of this compiler, and no stage but emission fails. -/
inductive CompilerError.Says : CompilerError → String → Prop
  | unreadableOptions {cause : FileError} {words : String} : cause.Says words →
      Says (.options (.unreadable cause) "") ("Failed to load options: " ++ ("Failed to read options file: " ++ words))
  | optionsFormat (details : String) :
      Says (.options .invalidJson details) ("Failed to load options: " ++ ("Invalid options JSON: " ++ details))
  | invalidOptions {cause : ConfigurationError} {words : String} : cause.Says words →
      Says (.options (.invalid cause) "") ("Failed to load options: " ++ ("Invalid options: " ++ words))
  | unreadableBundle {cause : FileError} {words : String} : cause.Says words →
      Says (.bundle (.unreadable cause) "") ("Failed to read message bundle: " ++ words)
  | bundleFormat (details : String) : Says (.bundle .invalidJson details) ("Invalid message bundle JSON: " ++ details)
  | unreadableTemplate {path : String} {cause : FileError} {words : String} : cause.Says words →
      Says (.unreadableTemplate path cause) ("Failed to read " ++ path ++ ": " ++ words)
  | templateFormat (path details : String) :
      Says (.invalidTemplate path details) ("Invalid template file " ++ path ++ ": " ++ details)
  | duplicateTarget (target first second : String) : Says (.output (.duplicateTarget target first second))
      (first ++ " and " ++ second ++ " would both be written to " ++ target)
  | unwritable {path : String} {cause : FileError} {words : String} : cause.Says words →
      Says (.output (.write path cause)) ("Failed to write " ++ path ++ ": " ++ words)
  | unsupported {cause : UnsupportedConstruct} {words : String} : cause.Says words →
      Says (.pipeline (.unsupportedConstruct cause)) ("Unsupported construct: " ++ words)
  | emission {cause : Php.EmitError} {words : String} : cause.Says words →
      Says (.pipeline (.collaborator .emission cause)) ("emission failed: " ++ words)

/-- **An error says one thing.** -/
theorem CompilerError.Says.eq_message {e : CompilerError} {text : String} (h : e.Says text) : text = e.message := by
  cases h with
  | unreadableOptions hwords =>
    obtain rfl := FileError.says_iff.1 hwords
    exact String.append_empty.symm
  | optionsFormat details => exact String.append_assoc.symm
  | invalidOptions hwords =>
    obtain rfl := ConfigurationError.says_iff.1 hwords
    exact String.append_empty.symm
  | unreadableBundle hwords =>
    obtain rfl := FileError.says_iff.1 hwords
    exact String.append_empty.symm
  | bundleFormat details => rfl
  | unreadableTemplate hwords =>
    obtain rfl := FileError.says_iff.1 hwords
    rfl
  | templateFormat path details => rfl
  | duplicateTarget target first second => rfl
  | unwritable hwords =>
    obtain rfl := FileError.says_iff.1 hwords
    rfl
  | unsupported hwords =>
    obtain rfl := UnsupportedConstruct.says_iff.1 hwords
    rfl
  | @emission cause _ hwords =>
    have hstage : "emission failed: " = "emission" ++ " failed: " := by decide
    obtain rfl := Php.EmitError.says_iff.1 hwords
    exact congrArg (· ++ cause.message) hstage

namespace Compiler

/-- A value in the given layout, on lines that end and read as the value. -/
structure Printed (layout : Json → String) (value : Json) (output : String) : Prop where
  layout_eq : output = layout value ++ "\n"
  reads : Json.parse? output = some value

/-- **What a failed invocation leaves**: its status, and one line that tells the error. -/
structure Failed (status : UInt32) (e : CompilerError) (exit : Exit) : Prop where
  status_eq : exit.status = status
  printed : ∃ text, e.Says text ∧ Printed Json.render
    (.object [(some "error", .text (some text)), (some "success", .bool false)]) exit.output

/-- A direction in a report, and the number that stands for it. -/
inductive Told : EffectiveDirection → Json → Int → Prop
  | ltr : Told (.fixed .ltr) (.object [(some "fixed", .text (some "ltr"))]) 1
  | rtl : Told (.fixed .rtl) (.object [(some "fixed", .text (some "rtl"))]) (-1)
  | deferred : Told .deferred (.text (some "defer_to_runtime")) 0

/-- **What a successful invocation leaves**: status 0, and an object on lines of its own. -/
structure Succeeded (members : List (Option String × Json)) (exit : Exit) : Prop where
  status_eq : exit.status = 0
  printed : Printed Json.pretty (.object members) exit.output

/-- A direction was asked for. -/
def DirectionTold (direction : EffectiveDirection) (exit : Exit) : Prop :=
  ∃ value number, Told direction value number ∧
    Succeeded [(some "direction", value), (some "staticValue", .number (.whole number))] exit

/-- Code was generated, and the manifest has an entry for each template file. -/
def ManifestTold (direction : EffectiveDirection) (entries : List Json) (exit : Exit) : Prop :=
  ∃ value number, Told direction value number ∧
    Succeeded [(some "direction", value), (some "engineVersion", .text (some "1.0.0")), (some "files", .array entries),
      (some "success", .bool true)] exit

/-- The digest of a text, in two hexadecimal digits for each byte. -/
def IsHash (text hash : String) : Prop :=
  ∃ digest, Sha256.IsDigest text.toUTF8.toList digest ∧
    hash.toList = digest.flatMap fun b => [Nat.digitChar (b.toNat / 16), Nat.digitChar (b.toNat % 16)]

/-- **The entry of a file in a manifest.**  It was written unless there is no target or the target held the text before. -/
inductive EntryTold (before : Disk) : PlannedOutput → String → Json → Prop
  | untargeted {source text hash : String} : IsHash text hash → EntryTold before ⟨source, none⟩ text (.object
      [(some "hash", .text (some hash)), (some "output", .null), (some "source", .text (some source)),
        (some "written", .bool false)])
  | targeted {source target text hash : String} {written : Bool} : IsHash text hash →
      (written = false ↔ before.read target = .ok text.toUTF8) → EntryTold before ⟨source, some target⟩ text (.object
        [(some "hash", .text (some hash)), (some "output", .text (some target)), (some "source", .text (some source)),
          (some "written", .bool written)])

end Compiler

/-! ## What is printed -/

/-- The text of an options file is refused for its format or for its settings. -/
theorem Options.ofText_eq_error {text : String} {e : OptionsLoadError} (h : Options.ofText text = .error e) :
    e = .invalidJson ∨ ∃ cause, e = .invalid cause := by
  unfold Options.ofText Options.ofJson at h
  split at h
  · exact .inl (Except.error.inj h).symm
  · split at h
    · exact .inl (Except.error.inj h).symm
    · obtain ⟨cause, -, rfl⟩ := mapError_eq_error h
      exact .inr ⟨cause, rfl⟩

theorem Bundle.ofText_eq_error {text : String} {e : BundleLoadError} (h : Bundle.ofText text = .error e) :
    e = .invalidJson := by
  unfold Bundle.ofText at h
  split at h
  · exact (Except.error.inj h).symm
  · cases h

namespace Compiler

section Errors

variable [Wording] {d : Disk} {name : Option String} {path text : String} {e : CompilerError}

theorem says_of_readOptions (h : readOptions text = .error e) : (∃ words, e.Says words) ∧ e.status = 1 := by
  obtain ⟨cause, hcause, rfl⟩ := mapError_eq_error h
  refine ⟨?_, rfl⟩
  rcases Options.ofText_eq_error hcause with rfl | ⟨cause, rfl⟩
  · exact ⟨_, .optionsFormat _⟩
  · exact ⟨_, .invalidOptions (ConfigurationError.says_iff.2 rfl)⟩

theorem says_of_optionsOn (h : optionsOn d name = .error e) : (∃ words, e.Says words) ∧ e.status = 1 := by
  cases name with
  | none => cases h
  | some path =>
    rcases Disk.load_eq_error h with ⟨cause, -, rfl⟩ | ⟨text, -, htext⟩
    · exact ⟨⟨_, .unreadableOptions (FileError.says_iff.2 rfl)⟩, rfl⟩
    · exact says_of_readOptions htext

theorem says_of_bundleOn (h : bundleOn d name = .error e) : (∃ words, e.Says words) ∧ e.status = 1 := by
  cases name with
  | none => cases h
  | some path =>
    rcases Disk.load_eq_error (map_eq_error h) with ⟨cause, -, rfl⟩ | ⟨text, -, htext⟩
    · exact ⟨⟨_, .unreadableBundle (FileError.says_iff.2 rfl)⟩, rfl⟩
    · obtain ⟨cause, hcause, rfl⟩ := mapError_eq_error htext
      obtain rfl := Bundle.ofText_eq_error hcause
      exact ⟨⟨_, .bundleFormat _⟩, rfl⟩

theorem says_of_templateOn (h : templateOn d path = .error e) : (∃ words, e.Says words) ∧ e.status = 1 := by
  rcases Disk.load_eq_error h with ⟨cause, -, rfl⟩ | ⟨text, -, htext⟩
  · exact ⟨⟨_, .unreadableTemplate (FileError.says_iff.2 rfl)⟩, rfl⟩
  · unfold readTemplate at htext
    split at htext
    · cases htext
      exact ⟨⟨_, .templateFormat path _⟩, rfl⟩
    · cases htext

end Errors

theorem says_of_output (cause : OutputError) : ∃ words, (CompilerError.output cause).Says words := by
  cases cause with
  | duplicateTarget target first second => exact ⟨_, .duplicateTarget target first second⟩
  | write path cause => exact ⟨_, .unwritable (FileError.says_iff.2 rfl)⟩

/-- Code that cannot be generated has a construct that is not supported, or fails to be emitted. -/
theorem says_of_generate {resolver : Resolver} {options : Options} {bundle : Option Bundle} {files : List TemplateFile}
    {cause : PipelineError Php.EmitError} (h : Codegen.generate resolver options bundle files = .error cause) :
    ∃ words, (CompilerError.pipeline cause).Says words := by
  cases hr : files.findSome? Codegen.refusal? with
  | some u =>
    rw [Codegen.generate_of_refusal hr] at h
    cases h
    exact ⟨_, .unsupported (UnsupportedConstruct.says_iff.2 rfl)⟩
  | none =>
    rw [Codegen.generate_of_supported hr] at h
    obtain ⟨cause, -, rfl⟩ := mapError_eq_error h
    exact ⟨_, .emission (Php.EmitError.says_iff.2 rfl)⟩

/-- **A failed invocation prints what its error says.** -/
theorem failed_ofResult {e : CompilerError} (h : ∃ words, e.Says words) :
    Failed e.status e (Exit.ofResult (.error e)) := by
  obtain ⟨words, hwords⟩ := h
  obtain rfl := hwords.eq_message
  exact ⟨rfl, _, hwords, rfl, Json.parse?_render_line _⟩

theorem Failed.ofResult_eq {status : UInt32} {e : CompilerError} {exit : Exit} (h : Failed status e exit)
    (hstatus : e.status = status) : Exit.ofResult (.error e) = exit := by
  obtain ⟨words, hwords, hprinted, -⟩ := h.printed
  obtain rfl := hwords.eq_message
  exact congr (congrArg Exit.mk (hstatus.trans h.status_eq.symm)) hprinted.symm

theorem told_direction (direction : EffectiveDirection) : Told direction direction.toJson direction.toInt := by
  rcases direction with (_ | _) | _
  · exact .ltr
  · exact .rtl
  · exact .deferred

theorem directionTold_iff {direction : EffectiveDirection} {exit : Exit} :
    DirectionTold direction exit ↔ Exit.ofResult (.ok (.direction direction)) = exit := by
  constructor
  · rintro ⟨value, number, htold, hstatus, hprinted, -⟩
    cases htold <;> exact congr (congrArg Exit.mk hstatus.symm) hprinted.symm
  · rintro rfl
    exact ⟨_, _, told_direction direction, rfl, rfl, Json.parse?_pretty_line _⟩

theorem manifestTold_ofResult (direction : EffectiveDirection) (records : List OutputRecord) :
    ManifestTold direction (records.map OutputRecord.toJson) (Exit.ofResult (.ok (.manifest direction records))) :=
  ⟨_, _, told_direction direction, rfl, rfl, Json.parse?_pretty_line _⟩

theorem isHash_sourceDigest (text : String) : IsHash text (sourceDigest text) :=
  ⟨_, Sha256.isDigest_digest _, String.toList_ofList⟩

theorem entryTold_record (before : Disk) (planned : PlannedOutput) (text : String) :
    EntryTold before planned text (planned.record before text).toJson := by
  obtain ⟨source, none | target⟩ := planned
  · exact .untargeted (isHash_sourceDigest text)
  · refine .targeted (isHash_sourceDigest text) ?_
    show (!before.holds target text) = false ↔ _
    rw [← Disk.holds_iff, Bool.not_eq_false']

end Compiler
end Stencil
