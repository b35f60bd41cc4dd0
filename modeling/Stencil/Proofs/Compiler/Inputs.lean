import Stencil.Proofs.Compiler.Outcome
/-!
# Inputs — what a generation leaves of the files it reads

A generation changes the files that its targets lead to and no others, but no step compares the targets with the files
that the invocation names.  So what is left of a file that was read depends on the targets that were written: the code,
if one of them leads there, and else what it held (`run_input_after`).  Only a name that no generated file has keeps an
input safe on every disk; the file of another name can be lost (`run_overwrites_input`).
-/
namespace Stencil

namespace Disk

variable {d before after : Disk} {path other : String} {paths : List String}

/-- Both paths lead to the same file. -/
def SameFile (d : Disk) (path other : String) : Prop :=
  ∃ l, d.resolve path = .ok (.named l) ∧ d.resolve other = .ok (.named l)

theorem SameFile.read_eq (h : d.SameFile path other) : d.read path = d.read other := by
  obtain ⟨l, hpath, hother⟩ := h
  simp only [read, hpath, hother]

/-- A relative path and its absolute spelling are paths to the same file. -/
theorem sameFile_absolute {l : Location} (hhome : ∀ name ∈ d.home, Path.Plain name) (hne : path ≠ "")
    (hrelative : Location.isAbsolute path = false) (h : d.resolve path = .ok (.named l)) :
    d.SameFile (d.absolute path) path :=
  ⟨l, (resolve_absolute hhome hne hrelative).trans h, h⟩

example : ∀ path ∈ ["/work/page.php", "./page.php", "../work/page.php"],
    SameFile { home := ["work"] } path "page.php" := by
  simp only [List.forall_mem_cons]
  exact ⟨⟨["work", "page.php"], rfl, rfl⟩, ⟨["work", "page.php"], rfl, rfl⟩, ⟨["work", "page.php"], rfl, rfl⟩, nofun⟩

/-- Paths to the same file end in the same name. -/
theorem SameFile.getLast?_names (h : d.SameFile path other) :
    (Location.names path).getLast? = (Location.names other).getLast? := by
  obtain ⟨l, hpath, hother⟩ := h
  obtain ⟨parent, name, hname, -, -, rfl⟩ := resolve_eq_named hpath
  obtain ⟨parent', name', hname', -, -, hl⟩ := resolve_eq_named hother
  rw [hname, hname', List.singleton_inj.1 (List.append_inj_right' hl rfl)]

theorem ChangedOnlyAt.sameFile (h : before.ChangedOnlyAt after paths) (hsame : before.SameFile path other) :
    after.SameFile path other := by
  obtain ⟨l, hpath, hother⟩ := hsame
  exact ⟨l, (h.resolve_eq_ok_iff path _).2 hpath, (h.resolve_eq_ok_iff other _).2 hother⟩

end Disk

/-- The targets of planned texts, each with its text. -/
def placements (plan : List PlannedOutput) (texts : List String) : List (String × String) :=
  (plan.zip texts).filterMap fun job => job.1.target.map fun target => (target, job.2)

section Delivered

variable {d after : Disk} {plan : List PlannedOutput} {texts : List String} {path : String} {w : String × String}

theorem mem_placements_iff :
    w ∈ placements plan texts ↔ ∃ job ∈ plan.zip texts, job.1.target = some w.1 ∧ job.2 = w.2 := by
  simp [placements, List.mem_filterMap, Prod.ext_iff]

/-- A file that a target leads to holds the text of that target afterwards. -/
theorem Delivered.read_of_sameFile (h : Delivered d after plan texts) (hw : w ∈ placements plan texts)
    (hsame : d.SameFile w.1 path) : after.read path = .ok w.2.toUTF8 := by
  obtain ⟨job, hjob, htarget, htext⟩ := mem_placements_iff.1 hw
  rw [← (h.changed.sameFile hsame).read_eq, ← htext]
  exact h.held job hjob w.1 htarget

/-- A file that no target leads to reads as before. -/
theorem Delivered.read_of_apart (h : Delivered d after plan texts) (hlength : plan.length ≤ texts.length)
    (hread : ∃ bytes, d.read path = .ok bytes) (hapart : ∀ w ∈ placements plan texts, ¬ d.SameFile w.1 path) :
    after.read path = d.read path := by
  obtain ⟨bytes, hread⟩ := hread
  refine Eq.trans ((h.changed.read_eq_ok_iff fun target htarget l hpath hl => ?_).2 hread) hread.symm
  -- The target has a text, as there are texts for the whole plan.
  obtain ⟨planned, hplanned, htarget⟩ := List.mem_filterMap.1 htarget
  rw [← List.map_fst_zip hlength] at hplanned
  obtain ⟨job, hjob, rfl⟩ := List.mem_map.1 hplanned
  exact hapart (target, job.2) (mem_placements_iff.2 ⟨job, hjob, htarget, rfl⟩) ⟨l, hl, hpath⟩

end Delivered

namespace Compiler

variable {d after : Disk} {r : Request} {exit : Exit} {path : String} {texts : List String} {w : String × String}
  {written : List (String × String)}

theorem Request.invocation_inj {r' : Request} (h : r'.invocation = r.invocation) : r' = r := by
  obtain ⟨options, bundle, outDir, files⟩ := r
  obtain ⟨options', bundle', outDir', files'⟩ := r'
  cases h
  rfl

/-- The files that a request names to be read. -/
def Request.inputs (r : Request) : List String := r.options.toList ++ r.bundle.toList ++ r.files

/-- The first `k` targets of a request, with the texts generated for them. -/
def Request.placed (r : Request) (k : Nat) (texts : List String) : List (String × String) :=
  placements ((r.files.take k).map (.ofSource r.outDir)) (texts.take k)

theorem mem_placed {k : Nat} (hw : w ∈ r.placed k texts) :
    ∃ directory ∈ r.outDir, ∃ source ∈ r.files, w.1 = Path.join directory (Path.phpFileName source) := by
  obtain ⟨job, hjob, htarget, -⟩ := mem_placements_iff.1 hw
  obtain ⟨source, hsource, hplanned⟩ := List.mem_map.1 (List.of_mem_zip hjob).1
  rw [← hplanned] at htarget
  obtain ⟨directory, hdirectory, htarget⟩ := Option.map_eq_some_iff.1 htarget
  exact ⟨directory, hdirectory, source, List.mem_of_mem_take hsource, htarget.symm⟩

/-- What a run leaves at a path: the text put there, or else what was there before. -/
structure LeftAt (before after : Disk) (written : List (String × String)) (path : String) : Prop where
  placed : ∀ w ∈ written, before.SameFile w.1 path → after.read path = .ok w.2.toUTF8
  kept : (∀ w ∈ written, ¬ before.SameFile w.1 path) → after.read path = before.read path

theorem LeftAt.read_eq_iff (h : LeftAt d after written path) :
    after.read path = d.read path ↔ ∀ w ∈ written, d.SameFile w.1 path → d.read path = .ok w.2.toUTF8 := by
  constructor
  · intro hsame w hw hfile
    exact hsame.symm.trans (h.placed w hw hfile)
  · intro hheld
    by_cases hfile : ∃ w ∈ written, d.SameFile w.1 path
    · obtain ⟨w, hw, hfile⟩ := hfile
      exact (h.placed w hw hfile).trans (hheld w hw hfile).symm
    · exact h.kept fun w hw hsame => hfile ⟨w, hw, hsame⟩

section

variable [Wording]

/-- What a request has put into its targets when it ends. -/
inductive Placing (d : Disk) (r : Request) : Exit → List (String × String) → Prop
  | nothing {paths : List String} {exit : Exit} (decided : Decided d r.invocation paths exit) : Placing d r exit []
  /-- The targets before number `k`, which cannot be written. -/
  | stopped {texts : List String} {cause : OutputError} {k : Nat} {exit : Exit} (loaded : Loaded d r)
    (code_eq : loaded.code = .ok texts) (early : k < r.files.length) (told : Failed 1 (.output cause) exit) :
    Placing d r exit (r.placed k texts)
  | all {texts : List String} {entries : List Json} {exit : Exit} (loaded : Loaded d r) (code_eq : loaded.code = .ok texts)
    (told : ManifestTold loaded.direction entries exit) : Placing d r exit (r.placed r.files.length texts)

/-- A target is the path of a generated file in the output directory. -/
theorem Placing.target_eq (h : Placing d r exit written) (hw : w ∈ written) :
    ∃ directory ∈ r.outDir, ∃ source ∈ r.files, w.1 = Path.join directory (Path.phpFileName source) := by
  cases h with
  | nothing decided => cases hw
  | stopped => exact mem_placed hw
  | all => exact mem_placed hw

/-- A file that is named unlike every generated file is at no target, on any disk. -/
theorem Placing.not_sameFile (h : Placing d r exit written)
    (hname : ∀ source ∈ r.files, (Location.names path).getLast? ≠ some (Path.phpFileName source)) :
    ∀ w ∈ written, ¬ d.SameFile w.1 path := by
  intro w hw hsame
  obtain ⟨directory, -, source, hsource, htarget⟩ := h.target_eq hw
  refine hname source hsource ?_
  rw [← hsame.getLast?_names, htarget, Path.names_join (Path.phpFileName_plain source), List.getLast?_concat]

/-- **Whatever code is generated for was read.** -/
theorem Loaded.readable (l : Loaded d r) (hpath : path ∈ r.inputs) : ∃ bytes, d.read path = .ok bytes := by
  rcases List.mem_append.1 hpath with hpath | hpath
  · rcases List.mem_append.1 hpath with hpath | hpath
    · exact read_of_optionsOn (Option.mem_toList.1 hpath) l.options_eq
    · exact read_of_bundleOn (Option.mem_toList.1 hpath) l.bundle_eq
  · obtain ⟨tree, -, htree⟩ := exists_of_forall₂ l.trees_eq hpath
    exact read_of_templateOn htree

theorem LeftAt.of_delivered {k : Nat} (loaded : Loaded d r) (hcode : loaded.code = .ok texts)
    (h : Delivered d after ((r.files.take k).map (.ofSource r.outDir)) (texts.take k)) (hpath : path ∈ r.inputs) :
    LeftAt d after (r.placed k texts) path := by
  have hplan : ((r.files.take k).map (PlannedOutput.ofSource r.outDir)).length ≤ (texts.take k).length := by
    refine Nat.le_of_eq ?_
    rw [List.length_map, List.length_take, List.length_take, loaded.length_of_code hcode]
  exact ⟨fun w hw => h.read_of_sameFile hw, h.read_of_apart hplan (loaded.readable hpath)⟩

/-- **A delivery places a row of targets**, and leaves the inputs as that row tells. -/
theorem Delivery.placing (h : Delivery d r exit after) :
    ∃ written, Placing d r exit written ∧ ∀ path ∈ r.inputs, LeftAt d after written path := by
  cases h with
  | @done texts _ _ _ loaded code_eq length_eq delivered _ told =>
    rw [← List.take_length (l := r.files), ← List.take_length (l := texts), length_eq] at delivered
    exact ⟨_, .all loaded code_eq told, fun path => .of_delivered loaded code_eq delivered⟩
  | failed loaded code_eq writing told =>
    rw [loaded.plan_eq_map] at writing
    cases writing with
    | failed planned_at _ _ _ delivered _ =>
      obtain ⟨hk, -⟩ := List.getElem?_eq_some_iff.1 planned_at
      rw [List.length_map] at hk
      rw [← List.map_take] at delivered
      exact ⟨_, .stopped loaded code_eq hk told, fun path => .of_delivered loaded code_eq delivered⟩

theorem run_placing {args : List String} (hargs : CommandLine.parse? args = some r.invocation) (d : Disk) :
    ∃ exit after written, (run (m := StateM Disk) args).run d = (exit, after) ∧ Placing d r exit written ∧
      ∀ path ∈ r.inputs, LeftAt d after written path := by
  -- Until all code is generated nothing is written, and after that only targets are.
  rcases decided_or_loaded d r.invocation with ⟨paths, exit, hdecided⟩ | ⟨r', hr, loaded, texts, hcode⟩
  · obtain ⟨result, hexecute, rfl⟩ := hdecided.execute_eq
    exact ⟨_, d, [], run_of_execute hargs hexecute, .nothing hdecided,
      fun path _ => ⟨fun _ hw => (nomatch hw), fun _ => rfl⟩⟩
  · obtain rfl := Request.invocation_inj hr
    obtain ⟨result, after, hwrite, hwriting⟩ := run_writeOutputs (apart_of_planOutputs loaded.plan_eq) texts d
    obtain ⟨written, hplacing, hleft⟩ := (delivery_of_writing loaded hcode hwriting).placing
    exact ⟨_, after, written, run_of_execute hargs (execute_of_code loaded hcode hwrite), hplacing, hleft⟩

/-- **What a generation leaves of its inputs**, on any disk and however it ends.  A file that it names to be read holds the
code of a target that leads there and was written, and what it held before if there is no such target; so it is safe
if it is named unlike every generated file. -/
theorem run_input_after {args : List String} (hargs : CommandLine.parse? args = some r.invocation) (d : Disk) :
    ∃ exit after written, (run (m := StateM Disk) args).run d = (exit, after) ∧ Placing d r exit written ∧
      ∀ path ∈ r.inputs, LeftAt d after written path ∧
        (after.read path = d.read path ↔ ∀ w ∈ written, d.SameFile w.1 path → d.read path = .ok w.2.toUTF8) ∧
        ((∀ source ∈ r.files, (Location.names path).getLast? ≠ some (Path.phpFileName source)) →
          after.read path = d.read path) := by
  obtain ⟨exit, after, written, hrun, hplacing, hleft⟩ := run_placing hargs d
  refine ⟨exit, after, written, hrun, hplacing, fun path hpath => ?_⟩
  have hat := hleft path hpath
  exact ⟨hat, hat.read_eq_iff, fun hname => hat.kept (hplacing.not_sameFile hname)⟩

end

/-- A template file without templates. -/
def pageText : String := "\x7b\"path\":\"page.tpl\",\"namespace\":\"page\"\x7d"

/-- A disk with that file alone, under the given name, where relative paths start. -/
def pageDisk (name : String) : Disk := { home := ["work"], entries := [(["work", name], .file pageText.toUTF8)] }

/-- A generation for the file, into the directory where it is. -/
def pageRequest (name : String) : Request := ⟨none, none, some ".", [name]⟩

/-- An input beside its target, under another name, is left as it is. -/
theorem run_input_after_json : ∃ exit after,
    (run (m := StateM Disk) ["generate", "--out-dir", ".", "page.json"]).run (pageDisk "page.json") = (exit, after) ∧
      after.read "page.json" = .ok pageText.toUTF8 := by
  have hargs : CommandLine.parse? ["generate", "--out-dir", ".", "page.json"] =
      some (pageRequest "page.json").invocation := by decide +kernel
  obtain ⟨exit, after, written, hrun, -, hinputs⟩ := run_input_after hargs (pageDisk "page.json")
  exact ⟨exit, after, hrun, (hinputs "page.json" (by decide)).2.2 (by decide +kernel)⟩

/-- **An input that is its own target is lost**: the code for it is written over it. -/
theorem run_overwrites_input : ¬ ∀ (args : List String) (r : Request) (d : Disk) (exit : Exit) (after : Disk),
    CommandLine.parse? args = some r.invocation → (run (m := StateM Disk) args).run d = (exit, after) →
      ∀ path ∈ r.inputs, ∀ bytes, d.read path = .ok bytes → after.read path = .ok bytes := by
  intro hall
  have hargs : CommandLine.parse? ["generate", "--out-dir", ".", "page.php"] =
      some (pageRequest "page.php").invocation := by decide +kernel
  have htemplate : templateOn (pageDisk "page.php") "page.php" = .ok ⟨"page.tpl", "page", []⟩ := by decide +kernel
  have hcode : Codegen.generate {} {} none [⟨"page.tpl", "page", []⟩] = .ok [Php.preamble "page.tpl"] := by
    decide +kernel
  let loaded : Loaded (pageDisk "page.php") (pageRequest "page.php") :=
    { options := {}, bundle := none, plan := [⟨"page.php", some "./page.php"⟩], options_eq := rfl, bundle_eq := rfl
      plan_eq := by decide +kernel, trees := [⟨"page.tpl", "page", []⟩], trees_eq := .cons htemplate .nil }
  rcases run_writeOutput ⟨"page.php", some "./page.php"⟩ (Php.preamble "page.tpl") (pageDisk "page.php") with
    ⟨after, hwrite, hdelivered⟩ | ⟨target, cause, ⟨⟩, hrefused, -⟩
  · have hrun := run_of_execute hargs (execute_of_code loaded hcode (run_writeOutputs_cons_of_ok hwrite rfl))
    have hkept := hall _ _ _ _ _ hargs hrun "page.php" (by decide) pageText.toUTF8 rfl
    have hsame : (pageDisk "page.php").SameFile "./page.php" "page.php" := ⟨["work", "page.php"], rfl, rfl⟩
    have hplaced := hdelivered.read_of_sameFile (w := ("./page.php", Php.preamble "page.tpl"))
      (mem_placements_iff.2 ⟨_, List.mem_cons_self, rfl, rfl⟩) hsame
    have htexts := Except.ok.inj (hplaced.symm.trans hkept)
    exact absurd (String.toByteArray_inj.1 htexts) (by decide)
  · have hwrite : (pageDisk "page.php").write "./page.php" (Php.preamble "page.tpl").toUTF8 =
        .ok ((pageDisk "page.php").put ["work", "page.php"] (.file (Php.preamble "page.tpl").toUTF8)) := rfl
    rw [hwrite] at hrefused
    cases hrefused

end Compiler
end Stencil
