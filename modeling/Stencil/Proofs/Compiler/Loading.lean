import Stencil.Compiler
import Stencil.Disk
import Stencil.Proofs.Result
/-!
# Loading — what the steps before the code read, and that they only read

Each loading step gives what the texts of its files say (`optionsOn`, `bundleOn`, `templateOn`) and leaves the disk as
it was, so it gives the same on two disks that have the same in those files.
-/
namespace Stencil

/-! ## Texts of files -/

namespace Disk

variable {ε α : Type} {d other : Disk} {path : String} {unreadable : FileError → ε} {ofText : String → Except ε α}

/-- The text of a file. -/
def text (d : Disk) (path : String) : Except FileError String :=
  match d.read path with
  | .error cause => .error cause
  | .ok bytes => match String.fromUTF8? bytes with
    | some text => .ok text
    | none => .error .notUtf8

/-- What the text of a file gives. -/
def load (d : Disk) (unreadable : FileError → ε) (ofText : String → Except ε α) (path : String) : Except ε α :=
  match d.text path with
  | .error cause => .error (unreadable cause)
  | .ok text => ofText text

theorem load_congr (h : other.read path = d.read path) :
    other.load unreadable ofText path = d.load unreadable ofText path := by
  rw [load, load, text, text, h]

theorem read_of_load {a : α} (h : d.load unreadable ofText path = .ok a) : ∃ bytes, d.read path = .ok bytes := by
  unfold load text at h
  split at h
  · cases h
  · next htext =>
    split at htext
    · cases htext
    · next bytes hread => exact ⟨bytes, hread⟩

theorem load_eq_error {e : ε} (h : d.load unreadable ofText path = .error e) :
    (∃ cause, d.text path = .error cause ∧ e = unreadable cause) ∨
      ∃ text, d.text path = .ok text ∧ ofText text = .error e := by
  unfold load at h
  split at h
  · next cause hcause =>
    cases h
    exact .inl ⟨cause, hcause, rfl⟩
  · next text htext => exact .inr ⟨text, htext, h⟩

end Disk

namespace Compiler

section Steps

variable {α β : Type} {x : ExceptT CompilerError (StateM Disk) α} {next : α → ExceptT CompilerError (StateM Disk) β}
  {d d' : Disk}

theorem run_bind_of_ok {a : α} (h : x.run.run d = (.ok a, d')) : (x >>= next).run.run d = (next a).run.run d' := by
  rw [ExceptT.run_bind, StateT.run_bind, h]
  rfl

theorem run_bind_of_error {e : CompilerError} (h : x.run.run d = (.error e, d')) :
    (x >>= next).run.run d = (.error e, d') := by
  rw [ExceptT.run_bind, StateT.run_bind, h]
  rfl

theorem run_bind {σ γ δ : Type} (y : StateM σ γ) (f : γ → StateM σ δ) (s : σ) :
    (y >>= f).run s = (f (y.run s).1).run (y.run s).2 := rfl

theorem run_readText (path : String) (d : Disk) :
    (Storage.readText (m := StateM Disk) path).run d = (d.text path, d) := by
  have hread : (Storage.read (m := StateM Disk) path).run d = (d.read path, d) := rfl
  simp only [Storage.readText, run_bind, hread, Disk.text]
  cases d.read path with
  | error cause => rfl
  | ok bytes => cases h : String.fromUTF8? bytes <;> simp only [h] <;> rfl

theorem run_load {ε : Type} (unreadable : FileError → ε) (ofText : String → Except ε α) (path : String) (d : Disk) :
    (Storage.load (m := StateM Disk) unreadable ofText path).run d = (d.load unreadable ofText path, d) := by
  simp only [Storage.load, run_bind, run_readText, Disk.load]
  cases d.text path <;> rfl

end Steps

/-! ## What the files say -/

variable [Wording]

/-- The options that a disk gives to an invocation. -/
def optionsOn (d : Disk) : Option String → Except CompilerError Options
  | none => .ok {}
  | some path => d.load (fun cause => .options (.unreadable cause) "") readOptions path

/-- The bundle that a disk gives to an invocation, if it names one. -/
def bundleOn (d : Disk) : Option String → Except CompilerError (Option Bundle)
  | none => .ok none
  | some path => (d.load (fun cause => .bundle (.unreadable cause) "") readBundle path).map some

/-- The template file at a path. -/
def templateOn (d : Disk) (path : String) : Except CompilerError TemplateFile :=
  d.load (.unreadableTemplate path) (readTemplate path) path

variable {d other : Disk} {path : String} {name : Option String}

theorem optionsOn_congr (h : ∀ path ∈ name, other.read path = d.read path) : optionsOn other name = optionsOn d name := by
  cases name with
  | none => rfl
  | some path => exact Disk.load_congr (h path rfl)

theorem bundleOn_congr (h : ∀ path ∈ name, other.read path = d.read path) : bundleOn other name = bundleOn d name := by
  cases name with
  | none => rfl
  | some path => exact congrArg (Except.map some) (Disk.load_congr (h path rfl))

theorem templateOn_congr (h : other.read path = d.read path) : templateOn other path = templateOn d path :=
  Disk.load_congr h

theorem read_of_optionsOn {o : Options} (hname : name = some path) (h : optionsOn d name = .ok o) :
    ∃ bytes, d.read path = .ok bytes := Disk.read_of_load (hname ▸ h)

theorem read_of_bundleOn {b : Option Bundle} (hname : name = some path) (h : bundleOn d name = .ok b) :
    ∃ bytes, d.read path = .ok bytes := by
  obtain ⟨_, hload, -⟩ := map_eq_ok (hname ▸ h)
  exact Disk.read_of_load hload

theorem read_of_templateOn {f : TemplateFile} (h : templateOn d path = .ok f) : ∃ bytes, d.read path = .ok bytes :=
  Disk.read_of_load h

/-! ## Steps on a disk -/

theorem run_loadOptions (name : Option String) (d : Disk) :
    (loadOptions (m := StateM Disk) name).run.run d = (optionsOn d name, d) := by
  cases name with
  | none => rfl
  | some path => exact run_load _ _ path d

theorem run_loadBundle (name : Option String) (d : Disk) :
    (loadBundle (m := StateM Disk) name).run.run d = (bundleOn d name, d) := by
  cases name with
  | none => rfl
  | some path =>
    have hload := run_load (fun cause => CompilerError.bundle (.unreadable cause) "") readBundle path d
    rw [loadBundle, bundleOn]
    cases hb : d.load (fun cause => CompilerError.bundle (.unreadable cause) "") readBundle path with
    | error e => exact run_bind_of_error (hload.trans (congrArg (·, d) hb))
    | ok b => exact run_bind_of_ok (hload.trans (congrArg (·, d) hb))

theorem run_loadTemplate (path : String) (d : Disk) :
    (loadTemplate (m := StateM Disk) path).run.run d = (templateOn d path, d) := run_load _ _ path d

theorem run_loadTemplates : ∀ (paths : List String) (d : Disk),
    (loadTemplates (m := StateM Disk) paths).run.run d = (paths.mapM (templateOn d), d)
  | [], _ => rfl
  | path :: paths, d => by
    rw [loadTemplates]
    cases hfile : templateOn d path with
    | error e =>
      rw [mapM_cons_of_error hfile]
      exact run_bind_of_error (hfile ▸ run_loadTemplate path d)
    | ok file =>
      rw [mapM_cons_of_ok hfile, run_bind_of_ok (hfile ▸ run_loadTemplate path d)]
      have hrest := run_loadTemplates paths d
      cases hfiles : paths.mapM (templateOn d) with
      | error e =>
        rw [hfiles] at hrest
        exact run_bind_of_error hrest
      | ok files =>
        rw [hfiles] at hrest
        exact run_bind_of_ok hrest

end Compiler
end Stencil
