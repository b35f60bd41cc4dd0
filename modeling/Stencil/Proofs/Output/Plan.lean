import Stencil.Output
import Stencil.Proofs.Disk
import Stencil.Proofs.Result
/-!
# Plan — what a plan of targets promises

A plan has one entry for each template file, in order (`planOutputs_eq_ok`), and its targets are different files of one
directory on any disk (`apart_of_planOutputs`).
-/
namespace Stencil

namespace PlannedOutput

/-- A template file with the target that it has in the output directory, if there is one. -/
def ofSource (outDir : Option String) (source : String) : PlannedOutput :=
  ⟨source, outDir.map fun directory => Path.join directory (Path.phpFileName source)⟩

/-- The targets, where both have one, are different files of one directory. -/
def Apart (planned other : PlannedOutput) : Prop :=
  ∀ target ∈ planned.target, ∀ otherTarget ∈ other.target, Disk.Siblings target otherTarget

theorem Apart.symm {planned other : PlannedOutput} (h : planned.Apart other) : other.Apart planned :=
  fun target ht otherTarget hot => (h otherTarget hot target ht).symm

end PlannedOutput

theorem planFrom_eq_ok {outDir : Option String} : ∀ {files : List String} {claimed : List (String × String)}
    {plan : List PlannedOutput}, planFrom outDir claimed files = .ok plan →
    plan = files.map (.ofSource outDir) ∧ (plan.filterMap PlannedOutput.target).Nodup ∧
      ∀ target ∈ plan.filterMap PlannedOutput.target, claimed.lookup target = none
  | [], _, _, h => by
    cases h
    exact ⟨rfl, List.nodup_nil, fun _ ht => nomatch ht⟩
  | source :: rest, claimed, plan, h => by
    unfold planFrom at h
    split at h
    · next htarget =>
      obtain ⟨others, hothers, rfl⟩ := map_eq_ok h
      obtain ⟨rfl, hnodup, hfree⟩ := planFrom_eq_ok hothers
      exact ⟨by rw [List.map_cons, PlannedOutput.ofSource, htarget], hnodup, hfree⟩
    · next target htarget =>
      split at h
      · cases h
      · next hclaimed =>
        obtain ⟨others, hothers, rfl⟩ := map_eq_ok h
        obtain ⟨rfl, hnodup, hfree⟩ := planFrom_eq_ok hothers
        -- A target of a later file was free with this one taken already.
        have hlater : ∀ other ∈ (rest.map (PlannedOutput.ofSource outDir)).filterMap PlannedOutput.target,
            other ≠ target ∧ claimed.lookup other = none := by
          intro other ho
          have hlookup := hfree other ho
          rw [List.lookup_cons] at hlookup
          split at hlookup
          · cases hlookup
          · next hne => exact ⟨by simpa using hne, hlookup⟩
        refine ⟨by rw [List.map_cons, PlannedOutput.ofSource, htarget], ?_, ?_⟩
        · exact List.nodup_cons.2 ⟨fun hmem => (hlater target hmem).1 rfl, hnodup⟩
        · rintro other (_ | ⟨_, ho⟩)
          · exact hclaimed
          · exact (hlater other ho).2

theorem planOutputs_eq_ok {files : List String} {outDir : Option String} {plan : List PlannedOutput}
    (h : planOutputs files outDir = .ok plan) :
    plan = files.map (.ofSource outDir) ∧ (plan.filterMap PlannedOutput.target).Nodup :=
  let ⟨hplan, hnodup, _⟩ := planFrom_eq_ok h
  ⟨hplan, hnodup⟩

/-- **The targets of a plan are different files of one directory**, on every disk. -/
theorem apart_of_planOutputs {files : List String} {outDir : Option String} {plan : List PlannedOutput}
    (h : planOutputs files outDir = .ok plan) : plan.Pairwise PlannedOutput.Apart := by
  obtain ⟨rfl, hnodup⟩ := planOutputs_eq_ok h
  refine List.pairwise_map.2 ((List.pairwise_map.1 (List.pairwise_filterMap.1 hnodup)).imp fun {source other} hne => ?_)
  intro target ht target' ht'
  obtain ⟨directory, rfl, rfl⟩ := Option.map_eq_some_iff.1 ht
  cases ht'
  refine Disk.siblings_join (Path.phpFileName_plain source) (Path.phpFileName_plain other) fun hname => ?_
  exact hne _ rfl _ rfl (congrArg (Path.join directory) hname)

end Stencil
