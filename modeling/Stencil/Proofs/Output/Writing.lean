import Stencil.Proofs.Output.Plan
/-!
# Writing — what the disk holds after the targets were written

One target is written or held its text already, or it cannot be written and then nothing has changed
(`run_writeOutput`).  As the targets of a plan are different files, a whole run can be told from the disk before it:
the records of a run that ends say what that disk held, and one that stops has left the later targets alone
(`run_writeOutputs`).  A second run finds every text in its place (`run_writeOutputs_of_held`).
-/
namespace Stencil

/-- Whether a file holds exactly the bytes of a text. -/
def Disk.holds (d : Disk) (path text : String) : Bool :=
  match d.read path with
  | .ok bytes => bytes.data = text.toUTF8.data
  | .error _ => false

theorem Disk.holds_iff {d : Disk} {path text : String} : d.holds path text = true ↔ d.read path = .ok text.toUTF8 := by
  unfold holds
  split
  · next bytes hread =>
    rw [hread, decide_eq_true_iff, Except.ok.injEq]
    exact ⟨ByteArray.ext, congrArg ByteArray.data⟩
  · next hread => simp [hread]

/-- The record of a planned text: it is written unless there is no target or the disk holds the text already. -/
def PlannedOutput.record (before : Disk) (planned : PlannedOutput) (text : String) : OutputRecord :=
  ⟨planned.source, planned.target, sourceDigest text, planned.target.any fun target => !before.holds target text⟩

/-- Every target holds its text, and nothing but the targets has changed. -/
structure Delivered (before after : Disk) (plan : List PlannedOutput) (texts : List String) : Prop where
  held : ∀ job ∈ plan.zip texts, ∀ target ∈ job.1.target, after.read target = .ok job.2.toUTF8
  changed : before.ChangedOnlyAt after (plan.filterMap PlannedOutput.target)

/-- What writing the planned texts comes to. -/
inductive Writing (plan : List PlannedOutput) (texts : List String) (before : Disk) :
    Except OutputError (List OutputRecord) → Disk → Prop
  | done {after : Disk} (delivered : Delivered before after plan texts) :
    Writing plan texts before (.ok ((plan.zip texts).map fun job => job.1.record before job.2)) after
  /-- The targets before number `k` are written; it cannot be written, and it and those after it are as they were. -/
  | failed {after : Disk} {k : Nat} {planned : PlannedOutput} {text target : String} {cause : FileError}
    (planned_at : plan[k]? = some planned) (text_at : texts[k]? = some text) (targeted : planned.target = some target)
    (refused : after.write target text.toUTF8 = .error cause)
    (delivered : Delivered before after (plan.take k) (texts.take k))
    (untouched : ∀ later ∈ plan.drop k, ∀ target ∈ later.target, after.read target = before.read target) :
    Writing plan texts before (.error (.write target cause)) after

variable {planned : PlannedOutput} {text target : String} {plan : List PlannedOutput} {texts : List String}
  {d before after : Disk}

/-! ## One target -/

theorem run_overwrite (target text : String) (d : Disk) :
    (writeIfChanged.overwrite (m := StateM Disk) target text).run d =
      match d.write target text.toUTF8 with
      | .ok d' => (.ok true, d')
      | .error cause => (.error (.write target cause), d) := by
  have hwrite : (Storage.write (m := StateM Disk) target text.toUTF8).run d =
      match d.write target text.toUTF8 with
      | .ok d' => (.ok (), d')
      | .error cause => (.error cause, d) := rfl
  rw [writeIfChanged.overwrite, StateT.run_bind, hwrite]
  cases d.write target text.toUTF8 <;> rfl

theorem run_writeIfChanged (target text : String) (d : Disk) :
    (writeIfChanged (m := StateM Disk) target text).run d =
      if d.holds target text then (.ok false, d)
      else (writeIfChanged.overwrite (m := StateM Disk) target text).run d := by
  have hread : (Storage.read (m := StateM Disk) target).run d = (d.read target, d) := rfl
  rw [writeIfChanged, StateT.run_bind, hread, Disk.holds]
  cases d.read target with
  | error cause => rfl
  | ok bytes =>
    by_cases h : bytes.data = text.toUTF8.data
    · rw [if_pos (decide_eq_true h)]
      exact congrArg (StateT.run · d) (if_pos h)
    · rw [if_neg (by simpa using h)]
      exact congrArg (StateT.run · d) (if_neg h)

theorem run_writeOutput_of_target {r : Except OutputError Bool} {d' : Disk} (source : String)
    (h : (writeIfChanged (m := StateM Disk) target text).run d = (r, d')) :
    (writeOutput (m := StateM Disk) ⟨source, some target⟩ text).run d =
      (r.map fun written => ⟨source, some target, sourceDigest text, written⟩, d') := by
  rw [writeOutput, StateT.run_bind, h]
  rfl

theorem Delivered.of_zip_eq_nil (h : plan.zip texts = []) (d : Disk) : Delivered d d plan texts :=
  ⟨fun _ hjob => absurd (h ▸ hjob) List.not_mem_nil, .refl d _⟩

theorem Delivered.of_target {source : String} (hread : after.read target = .ok text.toUTF8)
    (hchanged : before.ChangedOnlyAt after [target]) : Delivered before after [⟨source, some target⟩] [text] := by
  refine ⟨fun job hjob => ?_, hchanged⟩
  cases List.mem_singleton.1 hjob
  rintro _ ⟨⟩
  exact hread

/-- **One target holds its text afterwards, or nothing has changed.** -/
theorem run_writeOutput (planned : PlannedOutput) (text : String) (d : Disk) :
    (∃ d', (writeOutput (m := StateM Disk) planned text).run d = (.ok (planned.record d text), d') ∧
        Delivered d d' [planned] [text]) ∨
      ∃ target cause, planned.target = some target ∧ d.write target text.toUTF8 = .error cause ∧
        (writeOutput (m := StateM Disk) planned text).run d = (.error (.write target cause), d) := by
  obtain ⟨source, none | target⟩ := planned
  · refine .inl ⟨d, rfl, ⟨fun job hjob => ?_, .refl d _⟩⟩
    cases List.mem_singleton.1 hjob
    exact fun _ ht => nomatch ht
  · have hrecord : PlannedOutput.record d ⟨source, some target⟩ text =
        ⟨source, some target, sourceDigest text, !d.holds target text⟩ := rfl
    have hrun := run_writeIfChanged target text d
    rw [run_overwrite] at hrun
    rw [hrecord]
    cases hholds : d.holds target text with
    | true =>
      rw [hholds] at hrun
      exact .inl ⟨d, run_writeOutput_of_target source hrun, .of_target (Disk.holds_iff.1 hholds) (.refl d _)⟩
    | false =>
      rw [hholds] at hrun
      cases hwrite : d.write target text.toUTF8 with
      | error cause =>
        rw [hwrite] at hrun
        exact .inr ⟨target, cause, rfl, hwrite, run_writeOutput_of_target source hrun⟩
      | ok d' =>
        rw [hwrite] at hrun
        exact .inl ⟨d', run_writeOutput_of_target source hrun,
          .of_target (Disk.read_of_write hwrite) (Disk.changedOnlyAt_of_write hwrite)⟩

theorem run_writeOutput_of_held (h : ∀ target ∈ planned.target, d.read target = .ok text.toUTF8) :
    (writeOutput (m := StateM Disk) planned text).run d =
      (.ok ⟨planned.source, planned.target, sourceDigest text, false⟩, d) := by
  obtain ⟨source, none | target⟩ := planned
  · rfl
  · have hrun := run_writeIfChanged target text d
    rw [if_pos (Disk.holds_iff.2 (h target rfl))] at hrun
    exact run_writeOutput_of_target source hrun

/-! ## All targets -/

theorem run_writeOutputs_cons_of_error {e : OutputError} {d' : Disk}
    (h : (writeOutput (m := StateM Disk) planned text).run d = (.error e, d')) :
    (writeOutputs (m := StateM Disk) (planned :: plan) (text :: texts)).run d = (.error e, d') := by
  rw [writeOutputs, StateT.run_bind, h]
  rfl

theorem run_writeOutputs_cons_of_ok {r : OutputRecord} {d' : Disk} {result : Except OutputError (List OutputRecord)}
    (h : (writeOutput (m := StateM Disk) planned text).run d = (.ok r, d'))
    (hrest : (writeOutputs (m := StateM Disk) plan texts).run d' = (result, after)) :
    (writeOutputs (m := StateM Disk) (planned :: plan) (text :: texts)).run d = (result.map (r :: ·), after) := by
  rw [writeOutputs, StateT.run_bind, h]
  show (writeOutputs (m := StateM Disk) plan texts >>= fun rest => pure (rest.map (r :: ·))).run d' = _
  rw [StateT.run_bind, hrest]
  rfl

theorem PlannedOutput.record_congr
    (h : ∀ target ∈ planned.target, after.read target = before.read target) (text : String) :
    planned.record after text = planned.record before text := by
  obtain ⟨source, none | target⟩ := planned
  · rfl
  · have hholds : after.holds target text = before.holds target text := by
      rw [Disk.holds, Disk.holds, h target rfl]
    rw [PlannedOutput.record, PlannedOutput.record, Option.any_some, Option.any_some, hholds]

/-- Delivering one plan leaves alone the targets of another. -/
theorem Delivered.read_eq (h : Delivered before after plan texts) {other : PlannedOutput}
    (hapart : ∀ planned ∈ plan, other.Apart planned) :
    ∀ target ∈ other.target, after.read target = before.read target := by
  intro target ht
  refine h.changed.read_eq fun changed hchanged => ?_
  obtain ⟨planned, hplanned, htarget⟩ := List.mem_filterMap.1 hchanged
  exact hapart planned hplanned target ht changed htarget

theorem Delivered.cons {d' : Disk} (hfirst : Delivered d d' [planned] [text]) (hrest : Delivered d' after plan texts)
    (hapart : ∀ other ∈ plan, planned.Apart other) : Delivered d after (planned :: plan) (text :: texts) := by
  refine ⟨?_, ?_⟩
  · rintro job (_ | ⟨_, hjob⟩)
    · -- No later write undoes the first.
      intro target ht
      rw [hrest.read_eq hapart target ht]
      exact hfirst.held _ List.mem_cons_self target ht
    · exact hrest.held job hjob
  · rw [← List.singleton_append, List.filterMap_append]
    exact hfirst.changed.trans hrest.changed

theorem Writing.cons {d' : Disk} {result : Except OutputError (List OutputRecord)}
    (hfirst : Delivered d d' [planned] [text]) (hrest : Writing plan texts d' result after)
    (hapart : ∀ other ∈ plan, planned.Apart other) :
    Writing (planned :: plan) (text :: texts) d (result.map (planned.record d text :: ·)) after := by
  -- The first write is not seen at any later target, so the later records can be told from the disk before it.
  have hlater : ∀ later ∈ plan, ∀ target ∈ later.target, d'.read target = d.read target :=
    fun later hl => hfirst.read_eq fun _ hp => List.mem_singleton.1 hp ▸ (hapart later hl).symm
  cases hrest with
  | done delivered =>
    have hrecords : (plan.zip texts).map (fun job => job.1.record d' job.2) =
        (plan.zip texts).map fun job => job.1.record d job.2 :=
      List.map_congr_left fun job hjob => PlannedOutput.record_congr (hlater job.1 (List.of_mem_zip hjob).1) job.2
    rw [hrecords]
    exact .done (hfirst.cons delivered hapart)
  | @failed _ k _ _ _ _ planned_at text_at targeted refused delivered untouched =>
    have hdelivered := hfirst.cons delivered fun other ho => hapart other (List.mem_of_mem_take ho)
    refine .failed (k := k + 1) planned_at text_at targeted refused hdelivered fun later hl target ht => ?_
    rw [untouched later hl target ht, hlater later (List.mem_of_mem_drop hl) target ht]

/-- **What a whole run comes to**, for a plan whose targets are different files. -/
theorem run_writeOutputs : ∀ {plan : List PlannedOutput}, plan.Pairwise PlannedOutput.Apart →
    ∀ (texts : List String) (d : Disk), ∃ result after,
      (writeOutputs (m := StateM Disk) plan texts).run d = (result, after) ∧ Writing plan texts d result after
  | [], _, _, d => ⟨_, d, rfl, .done (.of_zip_eq_nil rfl d)⟩
  | _ :: _, _, [], d => ⟨_, d, rfl, .done (.of_zip_eq_nil rfl d)⟩
  | planned :: plan, h, text :: texts, d => by
    obtain ⟨hapart, hplan⟩ := List.pairwise_cons.1 h
    rcases run_writeOutput planned text d with ⟨d', hrun, hfirst⟩ | ⟨target, cause, htarget, hrefused, hrun⟩
    · obtain ⟨result, after, hrest, hwriting⟩ := run_writeOutputs hplan texts d'
      exact ⟨_, after, run_writeOutputs_cons_of_ok hrun hrest, hwriting.cons hfirst hapart⟩
    · exact ⟨_, d, run_writeOutputs_cons_of_error hrun,
        .failed (k := 0) rfl rfl htarget hrefused (.of_zip_eq_nil rfl d) fun _ _ _ _ => rfl⟩

/-- **A second run changes nothing**, once every target holds its text. -/
theorem run_writeOutputs_of_held : ∀ {plan : List PlannedOutput} {texts : List String},
    (∀ job ∈ plan.zip texts, ∀ target ∈ job.1.target, d.read target = .ok job.2.toUTF8) →
    (writeOutputs (m := StateM Disk) plan texts).run d =
      (.ok ((plan.zip texts).map fun job => ⟨job.1.source, job.1.target, sourceDigest job.2, false⟩), d)
  | [], _, _ => rfl
  | _ :: _, [], _ => rfl
  | planned :: plan, text :: texts, h => by
    have hfirst := run_writeOutput_of_held (h _ List.mem_cons_self)
    exact run_writeOutputs_cons_of_ok hfirst (run_writeOutputs_of_held fun job hjob => h job (List.mem_cons_of_mem _ hjob))

/-- **What writing the targets of a plan comes to**, on any disk.  Where it succeeds there is a record for each template
file, in order, and the same call then writes nothing. -/
theorem writeOutputs_writing {files : List String} {outDir : Option String} {plan : List PlannedOutput}
    {texts : List String} (hplan : planOutputs files outDir = .ok plan) (htexts : texts.length = files.length)
    (before : Disk) :
    ∃ result after, (writeOutputs (m := StateM Disk) plan texts).run before = (result, after) ∧
      Writing plan texts before result after ∧
      ∀ records, result = .ok records → records.map OutputRecord.source = files ∧
        (writeOutputs (m := StateM Disk) plan texts).run after =
          (.ok (records.map fun r => { r with written := false }), after) := by
  obtain ⟨result, after, hrun, hwriting⟩ := run_writeOutputs (apart_of_planOutputs hplan) texts before
  refine ⟨result, after, hrun, hwriting, ?_⟩
  rintro records rfl
  cases hwriting with
  | done delivered =>
    refine ⟨?_, ?_⟩
    · have hlength : plan.length = texts.length := by
        rw [(planOutputs_eq_ok hplan).1, List.length_map, htexts]
      rw [List.map_map]
      show (plan.zip texts).map (PlannedOutput.source ∘ Prod.fst) = files
      rw [← List.map_map, List.map_fst_zip (Nat.le_of_eq hlength), (planOutputs_eq_ok hplan).1, List.map_map]
      exact List.map_id files
    · rw [run_writeOutputs_of_held delivered.held, List.map_map]
      rfl

/-- A disk with an output directory, beside where relative paths start. -/
def outDisk : Disk := { home := ["site", "work"], entries := [(["site", "out"], .directory)] }

/-- Two files go into a directory that is there; both are written, and once more neither is. -/
theorem writeOutputs_writing_page :
    let plan : List PlannedOutput := [⟨"tpl/page.json", some "/site/out/page.php"⟩, ⟨"nav", some "/site/out/nav.php"⟩]
    let texts := ["<?php\n", ""]
    let records (written : Bool) : List OutputRecord :=
      [⟨"tpl/page.json", some "/site/out/page.php", sourceDigest "<?php\n", written⟩,
        ⟨"nav", some "/site/out/nav.php", sourceDigest "", written⟩]
    ∃ after, (writeOutputs (m := StateM Disk) plan texts).run outDisk = (.ok (records true), after) ∧
      Writing plan texts outDisk (.ok (records true)) after ∧ after.read "../out/page.php" = .ok "<?php\n".toUTF8 ∧
      (writeOutputs (m := StateM Disk) plan texts).run after = (.ok (records false), after) := by
  intro plan texts records
  have hplan : planOutputs ["tpl/page.json", "nav"] (some "/site/out") = .ok plan := by decide +kernel
  have hwrite : ∃ after, (writeOutputs (m := StateM Disk) plan texts).run outDisk = (.ok (records true), after) ∧
      after.read "../out/page.php" = .ok "<?php\n".toUTF8 := ⟨_, rfl, rfl⟩
  have htexts : texts.length = ["tpl/page.json", "nav"].length := rfl
  obtain ⟨result, after, hrun, hwriting, hagain⟩ := writeOutputs_writing hplan htexts outDisk
  obtain ⟨after', hwrite, hread⟩ := hwrite
  obtain ⟨rfl, rfl⟩ := Prod.mk.inj (hwrite.symm.trans hrun)
  exact ⟨_, hrun, hwriting, hread, (hagain _ rfl).2⟩

end Stencil
