import Mathlib.Data.List.Nodup
import Stencil.Proofs.Output.Plan
/-!
# Targets — a target of its own for every template file, or the first two files that share one

In one directory two files have one target exactly if their generated files have one name (`targetIn_eq_iff`).  While files
are planned, the targets that are taken are those of the files so far (`claims`), each with its file, so the plan stops at
the first file whose target an earlier one has (`planOutputs_outcome`).
-/
namespace Stencil

/-- The target of a template file in a directory. -/
def targetIn (directory source : String) : String := Path.join directory (Path.phpFileName source)

/-- Two files of a row, the first at `i` and the second at `j`, that have one target. -/
structure SharesTarget (directory : String) (files : List String) (i j : Nat) (target first second : String) : Prop where
  lt : i < j
  first_eq : files[i]? = some first
  second_eq : files[j]? = some second
  target_first : targetIn directory first = target
  target_second : targetIn directory second = target

/-- **The first file whose target is that of an earlier file**, and the one earlier file that it is the target of. -/
structure FirstClash (directory : String) (files : List String) (i j : Nat) (target first second : String) : Prop
    extends SharesTarget directory files i j target first second where
  least : ∀ i' j' target' first' second', SharesTarget directory files i' j' target' first' second' → j ≤ j'
  only : ∀ i' first', SharesTarget directory files i' j target first' second → i' = i

/-- **A file planned into a directory**: its target is in the directory itself, under the name of its generated file. -/
structure PlannedIn (directory source : String) (planned : PlannedOutput) : Prop where
  source_eq : planned.source = source
  target_eq : ∃ target, planned.target = some target ∧ Location.isAbsolute target = Location.isAbsolute directory ∧
    Location.names target = Location.names directory ++ [Path.phpFileName source]

variable {directory : String} {files : List String}

/-! ## Targets -/

theorem names_targetIn (directory source : String) :
    Location.names (targetIn directory source) = Location.names directory ++ [Path.phpFileName source] :=
  Path.names_join (Path.phpFileName_plain source)

theorem targetIn_eq_iff {source other : String} :
    targetIn directory source = targetIn directory other ↔ Path.phpFileName source = Path.phpFileName other := by
  constructor
  · intro h
    have hnames := congrArg Location.names h
    rw [names_targetIn, names_targetIn] at hnames
    exact List.singleton_inj.1 (List.append_cancel_left hnames)
  · intro h
    exact congrArg (Path.join directory) h

theorem nodup_targetIn_iff : (files.map (targetIn directory)).Nodup ↔ (files.map Path.phpFileName).Nodup := by
  unfold List.Nodup
  rw [List.pairwise_map, List.pairwise_map]
  exact List.Pairwise.iff fun _ _ => not_congr targetIn_eq_iff

theorem nodup_iff_not_shares : (files.map (targetIn directory)).Nodup ↔
    ∀ i j target first second, ¬ SharesTarget directory files i j target first second := by
  rw [List.nodup_iff_getElem?_ne_getElem?]
  constructor
  · intro h i j target first second hs
    obtain ⟨hj, -⟩ := List.getElem?_eq_some_iff.1 hs.second_eq
    refine h i j hs.lt (by rwa [List.length_map]) ?_
    rw [List.getElem?_map, List.getElem?_map, hs.first_eq, hs.second_eq, Option.map_some, Option.map_some, hs.target_first,
      hs.target_second]
  · intro h i j hij hj heq
    rw [List.length_map] at hj
    have hi : i < files.length := Nat.lt_trans hij hj
    rw [List.getElem?_map, List.getElem?_map, List.getElem?_eq_getElem hi, List.getElem?_eq_getElem hj] at heq
    exact h i j _ _ _ ⟨hij, List.getElem?_eq_getElem hi, List.getElem?_eq_getElem hj, Option.some.inj heq, rfl⟩

theorem SharesTarget.of_append {seen rest : List String} {i j : Nat} {target first second : String}
    (h : SharesTarget directory (seen ++ rest) i j target first second) (hj : j < seen.length) :
    SharesTarget directory seen i j target first second := by
  have hi : i < seen.length := Nat.lt_trans h.lt hj
  refine ⟨h.lt, ?_, ?_, h.target_first, h.target_second⟩
  · rw [← h.first_eq, List.getElem?_append_left hi]
  · rw [← h.second_eq, List.getElem?_append_left hj]

/-- Among files with targets of their own a target leads to one place. -/
theorem eq_of_nodup_targetIn (h : (files.map (targetIn directory)).Nodup) {i i' : Nat} {source source' : String}
    (hi : files[i]? = some source) (hi' : files[i']? = some source')
    (heq : targetIn directory source' = targetIn directory source) : i' = i := by
  have hnone := nodup_iff_not_shares.1 h
  rcases Nat.lt_trichotomy i i' with hlt | rfl | hlt
  · exact absurd ⟨hlt, hi, hi', rfl, heq⟩ (hnone i i' _ _ _)
  · rfl
  · exact absurd ⟨hlt, hi', hi, heq, rfl⟩ (hnone i' i _ _ _)

theorem FirstClash.unique {i j i' j' : Nat} {target first second target' first' second' : String}
    (h : FirstClash directory files i j target first second)
    (h' : FirstClash directory files i' j' target' first' second') :
    target' = target ∧ first' = first ∧ second' = second := by
  obtain rfl : j' = j := Nat.le_antisymm (h'.least _ _ _ _ _ h.toSharesTarget) (h.least _ _ _ _ _ h'.toSharesTarget)
  obtain rfl : second' = second := Option.some.inj (h'.second_eq.symm.trans h.second_eq)
  obtain rfl : target' = target := h'.target_second.symm.trans h.target_second
  obtain rfl : i' = i := h.only _ _ h'.toSharesTarget
  exact ⟨rfl, Option.some.inj (h'.first_eq.symm.trans h.first_eq), rfl⟩

/-! ## Planning -/

/-- The targets that are taken when the given files have been planned, each with its file. -/
def claims (directory : String) (seen : List String) : List (String × String) :=
  (seen.map fun source => (targetIn directory source, source)).reverse

theorem claims_concat (seen : List String) (source : String) :
    claims directory (seen ++ [source]) = (targetIn directory source, source) :: claims directory seen := by
  rw [claims, List.map_append, List.reverse_append]
  rfl

theorem mem_claims {seen : List String} {target source : String} :
    (target, source) ∈ claims directory seen ↔ source ∈ seen ∧ targetIn directory source = target := by
  rw [claims, List.mem_reverse, List.mem_map]
  constructor
  · rintro ⟨other, ho, heq⟩
    cases heq
    exact ⟨ho, rfl⟩
  · rintro ⟨hs, rfl⟩
    exact ⟨source, hs, rfl⟩

theorem lookup_claims_eq_some {seen : List String} {target first : String}
    (h : (claims directory seen).lookup target = some first) : first ∈ seen ∧ targetIn directory first = target := by
  obtain ⟨before, after, hsplit, -⟩ := List.lookup_eq_some_iff.1 h
  refine mem_claims.1 ?_
  rw [hsplit]
  exact List.mem_append_right _ List.mem_cons_self

theorem lookup_claims_eq_none {seen : List String} {target : String}
    (h : (claims directory seen).lookup target = none) : target ∉ seen.map (targetIn directory) := by
  intro hmem
  obtain ⟨source, hs, rfl⟩ := List.mem_map.1 hmem
  have hne := List.lookup_eq_none_iff.1 h _ (mem_claims.2 ⟨hs, rfl⟩)
  simp at hne

/-- The next file clashes, all files before it having targets of their own. -/
theorem firstClash_of_mem {seen rest : List String} {first second : String}
    (hnodup : (seen.map (targetIn directory)).Nodup) (hmem : first ∈ seen)
    (heq : targetIn directory first = targetIn directory second) :
    ∃ i j, FirstClash directory (seen ++ second :: rest) i j (targetIn directory second) first second := by
  obtain ⟨i, hi, hfirst⟩ := List.getElem_of_mem hmem
  have hfirst' : seen[i]? = some first := by rw [List.getElem?_eq_getElem hi, hfirst]
  have hshares : SharesTarget directory (seen ++ second :: rest) i seen.length (targetIn directory second) first second := by
    refine ⟨hi, ?_, ?_, heq, rfl⟩
    · rw [List.getElem?_append_left hi, hfirst']
    · rw [List.getElem?_append_right (Nat.le_refl _), Nat.sub_self]
      rfl
  refine ⟨i, seen.length, hshares, fun i' j' target' first' second' h => ?_, fun i' first' h => ?_⟩
  · by_contra hlt
    exact nodup_iff_not_shares.1 hnodup _ _ _ _ _ (h.of_append (Nat.lt_of_not_le hlt))
  · have hi' : seen[i']? = some first' := by rw [← h.first_eq, List.getElem?_append_left h.lt]
    exact eq_of_nodup_targetIn hnodup hfirst' hi' (h.target_first.trans heq.symm)

/-- **Planning stops at the first clash.**  The files seen so far have targets of their own, and these are taken. -/
theorem planFrom_eq_error {e : OutputError} : ∀ {rest seen : List String}, (seen.map (targetIn directory)).Nodup →
    planFrom (some directory) (claims directory seen) rest = .error e →
    ∃ i j target first second, e = .duplicateTarget target first second ∧
      FirstClash directory (seen ++ rest) i j target first second
  | [], _, _, h => by cases h
  | source :: rest, seen, hnodup, h => by
    have htarget : (some directory).map (fun d => Path.join d (Path.phpFileName source)) =
        some (targetIn directory source) := rfl
    rw [planFrom, htarget] at h
    cases hl : (claims directory seen).lookup (targetIn directory source) with
    | some first =>
      simp only [hl] at h
      obtain ⟨hmem, heq⟩ := lookup_claims_eq_some hl
      obtain ⟨i, j, hclash⟩ : ∃ i j, FirstClash directory (seen ++ source :: rest) i j _ first source :=
        firstClash_of_mem hnodup hmem heq
      exact ⟨i, j, _, first, source, (Except.error.inj h).symm, hclash⟩
    | none =>
      simp only [hl] at h
      -- The file takes its target, and the rest is planned against the claims of one more file.
      rw [← claims_concat] at h
      have hfree := lookup_claims_eq_none hl
      have hnodup' : ((seen ++ [source]).map (targetIn directory)).Nodup := by
        rw [List.map_append, List.map_singleton, ← List.concat_eq_append]
        exact hnodup.concat hfree
      obtain ⟨i, j, target, first, second, he, hclash⟩ := planFrom_eq_error hnodup' (map_eq_error h)
      rw [List.append_assoc, List.singleton_append] at hclash
      exact ⟨i, j, target, first, second, he, hclash⟩

theorem planFrom_none (claimed : List (String × String)) : ∀ files : List String,
    planFrom none claimed files = .ok (files.map fun source => ⟨source, none⟩)
  | [] => rfl
  | source :: rest => by
    rw [planFrom, planFrom_none claimed rest]
    rfl

theorem nodup_of_planOutputs {plan : List PlannedOutput} (h : planOutputs files (some directory) = .ok plan) :
    (files.map (targetIn directory)).Nodup := by
  obtain ⟨rfl, hnodup⟩ := planOutputs_eq_ok h
  have htargets : (files.map (PlannedOutput.ofSource (some directory))).filterMap PlannedOutput.target =
      files.map (targetIn directory) := by
    rw [List.filterMap_map, ← List.filterMap_eq_map]
    rfl
  rwa [htargets] at hnodup

theorem firstClash_of_planOutputs {e : OutputError} (h : planOutputs files (some directory) = .error e) :
    ∃ i j target first second, e = .duplicateTarget target first second ∧
      FirstClash directory files i j target first second := by
  have hnodup : (([] : List String).map (targetIn directory)).Nodup := List.nodup_nil
  exact planFrom_eq_error hnodup h

theorem plannedIn_ofSource (directory source : String) :
    PlannedIn directory source (.ofSource (some directory) source) :=
  ⟨rfl, targetIn directory source, rfl, Path.isAbsolute_join (Path.phpFileName_plain source),
    names_targetIn directory source⟩

/-- **What planning comes to.**  Without a directory every file is planned without a target.  With one the plan succeeds
exactly if the names of the generated files are all different: every file, in order, gets a target in that very directory
under this name, which is a name of a file and ends in `.php`, and no target is used twice.  Else the plan is refused for
the first clash. -/
theorem planOutputs_outcome (files : List String) :
    planOutputs files none = .ok (files.map fun source => ⟨source, none⟩) ∧
    (∀ source, Path.Plain (Path.phpFileName source) ∧ ∃ stem, Path.phpFileName source = stem ++ ".php") ∧
    ∀ directory : String,
      ((∃ plan, planOutputs files (some directory) = .ok plan) ↔ (files.map Path.phpFileName).Nodup) ∧
      (∀ plan, planOutputs files (some directory) = .ok plan →
        List.Forall₂ (PlannedIn directory) files plan ∧ (plan.map PlannedOutput.target).Nodup) ∧
      (∀ e, planOutputs files (some directory) = .error e ↔ ∃ i j target first second,
        e = .duplicateTarget target first second ∧ FirstClash directory files i j target first second) := by
  refine ⟨planFrom_none [] files, fun source => ⟨Path.phpFileName_plain source, Path.stem source, rfl⟩,
    fun directory => ⟨?_, fun plan h => ?_, fun e => ⟨firstClash_of_planOutputs, ?_⟩⟩⟩
  · constructor
    · rintro ⟨plan, h⟩
      exact nodup_targetIn_iff.1 (nodup_of_planOutputs h)
    · intro hnames
      have hnodup : (files.map (targetIn directory)).Nodup := nodup_targetIn_iff.2 hnames
      cases h : planOutputs files (some directory) with
      | ok plan => exact ⟨plan, rfl⟩
      | error e =>
        obtain ⟨i, j, target, first, second, -, hclash⟩ := firstClash_of_planOutputs h
        exact absurd hclash.toSharesTarget (nodup_iff_not_shares.1 hnodup _ _ _ _ _)
  · have hnodup := nodup_of_planOutputs h
    obtain ⟨rfl, -⟩ := planOutputs_eq_ok h
    refine ⟨List.forall₂_map_right_iff.2 (List.forall₂_same.2 fun source _ => plannedIn_ofSource directory source), ?_⟩
    have htargets : (files.map (PlannedOutput.ofSource (some directory))).map PlannedOutput.target =
        (files.map (targetIn directory)).map some := by
      rw [List.map_map, List.map_map]
      rfl
    rw [htargets]
    exact hnodup.map fun _ _ => Option.some.inj
  · rintro ⟨i, j, target, first, second, rfl, hclash⟩
    cases h : planOutputs files (some directory) with
    | ok plan => exact absurd hclash.toSharesTarget (nodup_iff_not_shares.1 (nodup_of_planOutputs h) _ _ _ _ _)
    | error e =>
      obtain ⟨i', j', target', first', second', rfl, hclash'⟩ := firstClash_of_planOutputs h
      obtain ⟨rfl, rfl, rfl⟩ := hclash.unique hclash'
      rfl

theorem planOutputs_outcome_pages :
    (∃ plan, planOutputs ["main.tpl", "parts/page.tpl"] (some "out") = .ok plan ∧
      List.Forall₂ (PlannedIn "out") ["main.tpl", "parts/page.tpl"] plan) ∧
    ∃ i j, FirstClash "out" ["main.tpl", "page.tpl", "parts/page.tpl"] i j "out/page.php" "page.tpl" "parts/page.tpl" := by
  obtain ⟨plan, hplan⟩ : ∃ plan, planOutputs ["main.tpl", "parts/page.tpl"] (some "out") = .ok plan := ⟨_, rfl⟩
  obtain ⟨i, j, target, first, second, he, hclash⟩ :=
    (((planOutputs_outcome ["main.tpl", "page.tpl", "parts/page.tpl"]).2.2 "out").2.2 _).1 rfl
  cases he
  exact ⟨⟨plan, hplan, (((planOutputs_outcome _).2.2 "out").2.1 plan hplan).1⟩, i, j, hclash⟩
end Stencil
