import Stencil.Proofs.Compiler.Report
/-!
# Outcome — what an invocation leaves and reports

An invocation is `Decided` at the first of its steps that ends it, before anything is written, or else all code was
generated and the targets are written, which `Delivery` tells.  What decides it depends on the files consulted up to that
step alone (`Decided.congr`), and every invocation ends in one of the two ways (`run_outcome`).
-/
namespace Stencil

/-- The directory that a command writes to, if it writes at all. -/
def Command.outDir? : Command → Option String
  | .generate _ outDir _ => outDir
  | .direction _ => none

namespace Compiler

/-- What a generate invocation names. -/
structure Request where
  options : Option String
  bundle : Option String
  outDir : Option String
  files : List String

def Request.invocation (r : Request) : Invocation := ⟨r.options, .generate r.bundle r.outDir r.files⟩

section

variable [Wording]

/-- What a request has once its targets are planned. -/
structure Planned (d : Disk) (r : Request) where
  options : Options
  bundle : Option Bundle
  plan : List PlannedOutput
  options_eq : optionsOn d r.options = .ok options
  bundle_eq : bundleOn d r.bundle = .ok bundle
  plan_eq : planOutputs r.files r.outDir = .ok plan

/-- What a request has once its template files are read. -/
structure Loaded (d : Disk) (r : Request) extends Planned d r where
  trees : List TemplateFile
  trees_eq : List.Forall₂ (fun path tree => templateOn d path = .ok tree) r.files trees

variable {d other after : Disk} {r : Request}

/-- The code for a request. -/
def Loaded.code (l : Loaded d r) : Except (PipelineError Php.EmitError) (List String) :=
  Codegen.generate {} l.options l.bundle l.trees

/-- The direction that the code for a request is generated under. -/
def Loaded.direction (l : Loaded d r) : EffectiveDirection :=
  ((Codegen.pipeline {}).context l.options l.bundle).direction

/-- An invocation ends before anything is written: `paths` are the files that it has read by then. -/
inductive Decided (d : Disk) : Invocation → (paths : List String) → Exit → Prop
  | options {i : Invocation} {e : CompilerError} {exit : Exit} (fault : optionsOn d i.options = .error e)
    (told : Failed 1 e exit) : Decided d i i.options.toList exit
  | direction {name locale : Option String} {o : Options} {exit : Exit} (options_eq : optionsOn d name = .ok o)
    (told : DirectionTold (({} : Resolver).resolve o locale) exit) : Decided d ⟨name, .direction locale⟩ name.toList exit
  | bundle {r : Request} {o : Options} {e : CompilerError} {exit : Exit} (options_eq : optionsOn d r.options = .ok o)
    (fault : bundleOn d r.bundle = .error e) (told : Failed 1 e exit) :
    Decided d r.invocation (r.options.toList ++ r.bundle.toList) exit
  | plan {r : Request} {o : Options} {b : Option Bundle} {cause : OutputError} {exit : Exit}
    (options_eq : optionsOn d r.options = .ok o) (bundle_eq : bundleOn d r.bundle = .ok b)
    (fault : planOutputs r.files r.outDir = .error cause) (told : Failed 1 (.output cause) exit) :
    Decided d r.invocation (r.options.toList ++ r.bundle.toList) exit
  /-- A template file cannot be had, and those before it can. -/
  | template {r : Request} {before later : List String} {path : String} {e : CompilerError} {exit : Exit}
    (planned : Planned d r) (files_eq : r.files = before ++ path :: later)
    (earlier : ∀ p ∈ before, ∃ tree, templateOn d p = .ok tree) (fault : templateOn d path = .error e)
    (told : Failed 1 e exit) :
    Decided d r.invocation (r.options.toList ++ r.bundle.toList ++ (before ++ [path])) exit
  | pipeline {r : Request} {cause : PipelineError Php.EmitError} {exit : Exit} (loaded : Loaded d r)
    (fault : loaded.code = .error cause) (told : Failed 2 (.pipeline cause) exit) :
    Decided d r.invocation (r.options.toList ++ r.bundle.toList ++ r.files) exit

/-- All code is generated, and the targets are written. -/
inductive Delivery (d : Disk) (r : Request) : Exit → Disk → Prop
  | failed {texts : List String} {cause : OutputError} {exit : Exit} {after : Disk} (loaded : Loaded d r)
    (code_eq : loaded.code = .ok texts) (writing : Writing loaded.plan texts d (.error cause) after)
    (told : Failed 1 (.output cause) exit) : Delivery d r exit after
  /-- The manifest tells the direction of the code and has an entry for each template file, in order. -/
  | done {texts : List String} {entries : List Json} {exit : Exit} {after : Disk} (loaded : Loaded d r)
    (code_eq : loaded.code = .ok texts) (length_eq : texts.length = r.files.length)
    (delivered : Delivered d after (r.files.map (.ofSource r.outDir)) texts)
    (entries_eq : List.Forall₂ (fun job => EntryTold d (.ofSource r.outDir job.1) job.2) (r.files.zip texts) entries)
    (told : ManifestTold loaded.direction entries exit) : Delivery d r exit after

/-! ## What decides -/

theorem templateOn_congr_forall₂ {paths : List String} {trees : List TemplateFile}
    (h : List.Forall₂ (fun path tree => templateOn d path = .ok tree) paths trees)
    (hagree : ∀ path ∈ paths, other.read path = d.read path) :
    List.Forall₂ (fun path tree => templateOn other path = .ok tree) paths trees := by
  induction h with
  | nil => exact .nil
  | cons hfirst _ ih =>
    have hother := templateOn_congr (hagree _ List.mem_cons_self)
    exact .cons (hother.trans hfirst) (ih fun path hp => hagree path (List.mem_cons_of_mem _ hp))

theorem inputs_congr (hagree : ∀ path ∈ r.options.toList ++ r.bundle.toList, other.read path = d.read path) :
    optionsOn other r.options = optionsOn d r.options ∧ bundleOn other r.bundle = bundleOn d r.bundle :=
  ⟨optionsOn_congr fun path hp => hagree path (List.mem_append_left _ (Option.mem_toList.2 hp)),
    bundleOn_congr fun path hp => hagree path (List.mem_append_right _ (Option.mem_toList.2 hp))⟩

/-- What is planned on one disk is planned on another that has the same options and bundle. -/
def Planned.transport (p : Planned d r)
    (hagree : ∀ path ∈ r.options.toList ++ r.bundle.toList, other.read path = d.read path) : Planned other r where
  options := p.options
  bundle := p.bundle
  plan := p.plan
  options_eq := (inputs_congr hagree).1.trans p.options_eq
  bundle_eq := (inputs_congr hagree).2.trans p.bundle_eq
  plan_eq := p.plan_eq

/-- **What decides an invocation depends on the files read by then alone.** -/
theorem Decided.congr {i : Invocation} {paths : List String} {exit : Exit} (h : Decided d i paths exit)
    (hagree : ∀ path ∈ paths, other.read path = d.read path) : Decided other i paths exit := by
  cases h with
  | options fault told =>
    have hoptions := optionsOn_congr fun path hp => hagree path (Option.mem_toList.2 hp)
    exact .options (hoptions.trans fault) told
  | direction options_eq told =>
    have hoptions := optionsOn_congr fun path hp => hagree path (Option.mem_toList.2 hp)
    exact .direction (hoptions.trans options_eq) told
  | bundle options_eq fault told =>
    obtain ⟨hoptions, hbundle⟩ := inputs_congr hagree
    exact .bundle (hoptions.trans options_eq) (hbundle.trans fault) told
  | plan options_eq bundle_eq fault told =>
    obtain ⟨hoptions, hbundle⟩ := inputs_congr hagree
    exact .plan (hoptions.trans options_eq) (hbundle.trans bundle_eq) fault told
  | @template r before later path e exit planned files_eq earlier fault told =>
    have hpath : ∀ p ∈ before ++ [path], templateOn other p = templateOn d p :=
      fun p hp => templateOn_congr (hagree p (List.mem_append_right _ hp))
    refine .template (planned.transport fun p hp => hagree p (List.mem_append_left _ hp)) files_eq ?_ ?_ told
    · intro p hp
      rw [hpath p (List.mem_append_left _ hp)]
      exact earlier p hp
    · rw [hpath path (List.mem_append_right _ List.mem_cons_self)]
      exact fault
  | pipeline loaded fault told =>
    have htrees := templateOn_congr_forall₂ loaded.trees_eq fun p hp => hagree p (List.mem_append_right _ hp)
    have hplanned := fun p hp => hagree p (List.mem_append_left _ hp)
    exact .pipeline ⟨loaded.toPlanned.transport hplanned, loaded.trees, htrees⟩ fault told

/-! ## Steps of a run -/

theorem run_of_execute {args : List String} {i : Invocation} (hargs : CommandLine.parse? args = some i)
    {result : Except CompilerError Report} (h : (execute (m := StateM Disk) i).run.run d = (result, after)) :
    (run (m := StateM Disk) args).run d = (Exit.ofResult result, after) := by
  simp only [run, hargs, run_bind, h]
  rfl

theorem execute_of_options {o : Options} (h : optionsOn d r.options = .ok o) :
    (execute (m := StateM Disk) r.invocation).run.run d =
      (generate (m := StateM Disk) o r.bundle r.outDir r.files).run.run d := by
  have hoptions : (loadOptions (m := StateM Disk) r.options).run.run d = (.ok o, d) := by
    rw [run_loadOptions, h]
  rw [execute]
  exact run_bind_of_ok hoptions

/-- The rest of a generation, from the template files on. -/
def fromTemplates (options : Options) (bundle : Option Bundle) (plan : List PlannedOutput) (paths : List String) :
    ExceptT CompilerError (StateM Disk) Report := do
  let files ← loadTemplates paths
  let texts ← ExceptT.mk (pure ((Codegen.generate {} options bundle files).mapError .pipeline))
  let records ← ExceptT.mk do pure ((← writeOutputs plan texts).mapError .output)
  pure (.manifest (({} : Resolver).resolve options (bundle.map Bundle.locale)) records)

theorem execute_of_planned (p : Planned d r) : (execute (m := StateM Disk) r.invocation).run.run d =
    (fromTemplates p.options p.bundle p.plan r.files).run.run d := by
  have hbundle : (loadBundle (m := StateM Disk) r.bundle).run.run d = (.ok p.bundle, d) := by
    rw [run_loadBundle, p.bundle_eq]
  rw [execute_of_options p.options_eq, generate, run_bind_of_ok hbundle, p.plan_eq]
  rfl

theorem execute_of_failed_code (l : Loaded d r) {cause : PipelineError Php.EmitError} (h : l.code = .error cause) :
    (execute (m := StateM Disk) r.invocation).run.run d = (.error (.pipeline cause), d) := by
  have htemplates : (loadTemplates (m := StateM Disk) r.files).run.run d = (.ok l.trees, d) := by
    rw [run_loadTemplates, mapM_of_forall₂ l.trees_eq]
  rw [execute_of_planned l.toPlanned, fromTemplates, run_bind_of_ok htemplates]
  rw [show Codegen.generate {} l.options l.bundle l.trees = .error cause from h]
  rfl

theorem execute_of_code (l : Loaded d r) {texts : List String} (h : l.code = .ok texts)
    {result : Except OutputError (List OutputRecord)}
    (hwrite : (writeOutputs (m := StateM Disk) l.plan texts).run d = (result, after)) :
    (execute (m := StateM Disk) r.invocation).run.run d =
      ((result.mapError .output).map (.manifest l.direction), after) := by
  have htemplates : (loadTemplates (m := StateM Disk) r.files).run.run d = (.ok l.trees, d) := by
    rw [run_loadTemplates, mapM_of_forall₂ l.trees_eq]
  have hrecords : (ExceptT.mk (do pure ((← writeOutputs (m := StateM Disk) l.plan texts).mapError .output)) :
      ExceptT CompilerError (StateM Disk) (List OutputRecord)).run.run d = (result.mapError .output, after) := by
    rw [ExceptT.run_mk, run_bind, hwrite]
    rfl
  have htexts : (ExceptT.mk (pure ((Codegen.generate {} l.options l.bundle l.trees).mapError .pipeline)) :
      ExceptT CompilerError (StateM Disk) (List String)).run.run d = (.ok texts, d) := by
    rw [show Codegen.generate {} l.options l.bundle l.trees = .ok texts from h]
    rfl
  rw [execute_of_planned l.toPlanned, fromTemplates, run_bind_of_ok htemplates, run_bind_of_ok htexts]
  cases result with
  | error cause => exact run_bind_of_error hrecords
  | ok records => exact run_bind_of_ok hrecords

theorem Decided.execute_eq {i : Invocation} {paths : List String} {exit : Exit} (h : Decided d i paths exit) :
    ∃ result, (execute (m := StateM Disk) i).run.run d = (result, d) ∧ Exit.ofResult result = exit := by
  cases h with
  | @options i e exit fault told =>
    have hoptions : (loadOptions (m := StateM Disk) i.options).run.run d = (.error e, d) := by
      rw [run_loadOptions, fault]
    exact ⟨_, run_bind_of_error hoptions, told.ofResult_eq (says_of_optionsOn fault).2⟩
  | @direction name locale o exit options_eq told =>
    have hoptions : (loadOptions (m := StateM Disk) name).run.run d = (.ok o, d) := by
      rw [run_loadOptions, options_eq]
    exact ⟨_, run_bind_of_ok hoptions, directionTold_iff.1 told⟩
  | @bundle r o e exit options_eq fault told =>
    have hbundle : (loadBundle (m := StateM Disk) r.bundle).run.run d = (.error e, d) := by
      rw [run_loadBundle, fault]
    have hexecute := (execute_of_options options_eq).trans (run_bind_of_error hbundle)
    exact ⟨_, hexecute, told.ofResult_eq (says_of_bundleOn fault).2⟩
  | @plan r o b cause exit options_eq bundle_eq fault told =>
    have hbundle : (loadBundle (m := StateM Disk) r.bundle).run.run d = (.ok b, d) := by
      rw [run_loadBundle, bundle_eq]
    refine ⟨.error (.output cause), ?_, told.ofResult_eq rfl⟩
    rw [execute_of_options options_eq, Compiler.generate, run_bind_of_ok hbundle, fault]
    rfl
  | @template r before later path e exit planned files_eq earlier fault told =>
    have htemplates : (loadTemplates (m := StateM Disk) r.files).run.run d = (.error e, d) := by
      rw [run_loadTemplates, files_eq, mapM_of_first earlier fault]
    exact ⟨_, (execute_of_planned planned).trans (run_bind_of_error htemplates),
      told.ofResult_eq (says_of_templateOn fault).2⟩
  | pipeline loaded fault told => exact ⟨_, execute_of_failed_code loaded fault, told.ofResult_eq rfl⟩

/-- An invocation is decided before anything is written, or all code for it is generated. -/
theorem decided_or_loaded (d : Disk) (i : Invocation) : (∃ paths exit, Decided d i paths exit) ∨
    ∃ r, r.invocation = i ∧ ∃ (l : Loaded d r) (texts : List String), l.code = .ok texts := by
  -- The steps are tried in the order of a run; each either decides or hands its result on.
  have hfailed : ∀ {e : CompilerError}, (∃ words, e.Says words) ∧ e.status = 1 → Failed 1 e (Exit.ofResult (.error e)) :=
    fun h => h.2 ▸ failed_ofResult h.1
  obtain ⟨name, command⟩ := i
  cases ho : optionsOn d name with
  | error e => exact .inl ⟨_, _, .options ho (hfailed (says_of_optionsOn ho))⟩
  | ok o =>
    cases command with
    | direction locale => exact .inl ⟨_, _, .direction ho (directionTold_iff.2 rfl)⟩
    | generate bundle outDir files =>
      let r : Request := ⟨name, bundle, outDir, files⟩
      cases hb : bundleOn d bundle with
      | error e => exact .inl ⟨_, _, .bundle (r := r) ho hb (hfailed (says_of_bundleOn hb))⟩
      | ok b =>
        cases hp : planOutputs files outDir with
        | error cause => exact .inl ⟨_, _, .plan (r := r) ho hb hp (failed_ofResult (says_of_output cause))⟩
        | ok plan =>
          have planned : Planned d r := ⟨o, b, plan, ho, hb, hp⟩
          rcases mapM_cases (templateOn d) files with
            ⟨trees, htrees⟩ | ⟨before, path, later, e, hfiles, hbefore, he⟩
          · let loaded : Loaded d r := ⟨planned, trees, htrees⟩
            cases hc : loaded.code with
            | error cause => exact .inl ⟨_, _, .pipeline loaded hc (failed_ofResult (says_of_generate hc))⟩
            | ok texts => exact .inr ⟨r, rfl, loaded, texts, hc⟩
          · exact .inl ⟨_, _, .template planned hfiles hbefore he (hfailed (says_of_templateOn he))⟩

theorem Loaded.plan_eq_map (l : Loaded d r) : l.plan = r.files.map (.ofSource r.outDir) := (planOutputs_eq_ok l.plan_eq).1

theorem Loaded.length_of_code (l : Loaded d r) {texts : List String} (h : l.code = .ok texts) :
    texts.length = r.files.length := (Codegen.length_of_generate h).trans l.trees_eq.length_eq.symm

theorem delivery_of_writing (loaded : Loaded d r) {texts : List String} (hcode : loaded.code = .ok texts)
    {result : Except OutputError (List OutputRecord)} (h : Writing loaded.plan texts d result after) :
    Delivery d r (Exit.ofResult ((result.mapError .output).map (.manifest loaded.direction))) after := by
  cases result with
  | error cause => exact .failed loaded hcode h (failed_ofResult (says_of_output cause))
  | ok records =>
    cases h with
    | done delivered =>
      rw [loaded.plan_eq_map] at delivered ⊢
      refine .done loaded hcode (loaded.length_of_code hcode) delivered ?_ (manifestTold_ofResult _ _)
      rw [List.zip_map_left, List.map_map, List.map_map]
      refine List.forall₂_map_right_iff.2 (List.forall₂_same.2 fun job _ => ?_)
      exact entryTold_record d (.ofSource r.outDir job.1) job.2

/-- **What an invocation leaves and reports**, on any disk. -/
theorem run_outcome {args : List String} {i : Invocation} (hargs : CommandLine.parse? args = some i) (d : Disk) :
    ∃ exit after, (run (m := StateM Disk) args).run d = (exit, after) ∧
      ((∃ paths, Decided d i paths exit ∧ after = d ∧
          ∀ other : Disk, (∀ path ∈ paths, other.read path = d.read path) →
            (run (m := StateM Disk) args).run other = (exit, other)) ∨
        ∃ r, r.invocation = i ∧ Delivery d r exit after) ∧
      (i.command.outDir? = none → after = d) := by
  rcases decided_or_loaded d i with ⟨paths, exit, hdecided⟩ | ⟨r, rfl, loaded, texts, hcode⟩
  · have hrun : ∀ other : Disk, Decided other i paths exit →
        (run (m := StateM Disk) args).run other = (exit, other) := by
      intro other h
      obtain ⟨result, hexecute, rfl⟩ := h.execute_eq
      exact run_of_execute hargs hexecute
    exact ⟨exit, d, hrun d hdecided, .inl ⟨paths, hdecided, rfl, fun other hagree => hrun other (hdecided.congr hagree)⟩,
      fun _ => rfl⟩
  · -- The targets are written; without a directory there are none.
    obtain ⟨result, after, hwrite, hwriting⟩ := run_writeOutputs (apart_of_planOutputs loaded.plan_eq) texts d
    refine ⟨_, after, run_of_execute hargs (execute_of_code loaded hcode hwrite), .inr ⟨r, rfl, ?_⟩, fun hdir => ?_⟩
    · exact delivery_of_writing loaded hcode hwriting
    · have hheld : ∀ job ∈ loaded.plan.zip texts, ∀ target ∈ job.1.target, d.read target = .ok job.2.toUTF8 := by
        intro job hjob target ht
        have hjob := (List.of_mem_zip hjob).1
        rw [(planOutputs_eq_ok loaded.plan_eq).1] at hjob
        obtain ⟨source, -, hsource⟩ := List.mem_map.1 hjob
        rw [← hsource, PlannedOutput.ofSource, show r.outDir = none from hdir] at ht
        cases ht
      rw [run_writeOutputs_of_held hheld] at hwrite
      exact (congrArg Prod.snd hwrite).symm

end

/-- A page of one template, as its file has it. -/
def siteText : String :=
  "\x7b\"path\":\"page.tpl\",\"namespace\":\"page\",\"templates\":[\x7b\"name\":\"hello\"," ++
    "\"body\":[\x7b\"kind\":\"raw_text\",\"text\":\"Hi\"\x7d]\x7d]\x7d"

/-- A disk with the page, and beside it a directory for code. -/
def siteDisk : Disk where
  home := ["work"]
  entries := [(["work", "page.json"], .file siteText.toUTF8), (["work", "out"], .directory)]

/-- The code for the page. -/
def siteCode : String := "\n".intercalate
  ["<?php", "// This file was automatically generated from page.tpl.", "// Please don't edit this file by hand.", "",
    "function page_hello(array $data = array()) \x7b", "    $output = '';", "    $output .= 'Hi';", "    return $output;",
    "\x7d", ""]

/-- The page is generated into the directory, and the manifest says so. -/
theorem run_outcome_page : ∃ exit after r,
    (run (m := StateM Disk) ["generate", "--out-dir", "out", "page.json"]).run siteDisk = (exit, after) ∧
      Request.invocation r = ⟨none, .generate none (some "out") ["page.json"]⟩ ∧ Delivery siteDisk r exit after ∧
      exit = ⟨0, "\n".intercalate ["\x7b", "  \"direction\": \x7b", "    \"fixed\": \"ltr\"", "  \x7d,",
        "  \"engineVersion\": \"1.0.0\",", "  \"files\": [", "    \x7b",
        "      \"hash\": \"ace7047c4dab340ff363db4f71ccddc5d9203e491add1a72ecab58fd6e027153\",",
        "      \"output\": \"out/page.php\",", "      \"source\": \"page.json\",", "      \"written\": true", "    \x7d",
        "  ],", "  \"success\": true", "\x7d", ""]⟩ ∧
      after.read "out/page.php" = .ok siteCode.toUTF8 := by
  have hargs : CommandLine.parse? ["generate", "--out-dir", "out", "page.json"] =
      some ⟨none, .generate none (some "out") ["page.json"]⟩ := by decide +kernel
  obtain ⟨exit, after, hrun, hends, -⟩ := run_outcome hargs siteDisk
  have hexit : exit = _ := congrArg Prod.fst hrun.symm
  have hafter : after = _ := congrArg Prod.snd hrun.symm
  have hread : after.read "out/page.php" = .ok siteCode.toUTF8 := by
    rw [hafter]
    decide +kernel
  -- The code was not there before, so the run was not decided before the targets were written.
  rcases hends with ⟨paths, -, rfl, -⟩ | ⟨r, hr, hdelivery⟩
  · exact absurd hread (by decide +kernel)
  · refine ⟨exit, after, r, hrun, hr, hdelivery, ?_, hread⟩
    rw [hexit]
    decide +kernel

end Compiler
end Stencil
