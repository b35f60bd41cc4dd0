import Stencil.Proofs.Codegen.Outcome
import Stencil.Proofs.Php.Fault
/-!
# Batch — a batch against its files alone

What a batch gives follows from what each of its files gives in a batch of its own (`batch_iff`): nothing passes from one
file to the next, a refusal comes before every fault of emission, and among faults of one kind the first file decides.
No message is left for emission to find, so `AfterInsertion` lists the faults that it can have.
-/
namespace Stencil
namespace Codegen

/-! ## Faults -/

/-- The faults of emission that insertion does not rule out. -/
inductive AfterInsertion : Php.EmitError → Prop
  | injectedDataDisabled (function expression : String) : AfterInsertion (.injectedDataDisabled function expression)
  | invalidExpression (expression : String) : AfterInsertion (.invalidExpression expression)
  | conflictingMessageText (id : String) : AfterInsertion (.conflictingMessageText id)

variable {c : Context} {f : TemplateFile}

/-- **No message of a file that is not refused is left.** -/
theorem message_notMem_prepared (bundle : Option Bundle) (direction : EffectiveDirection) (h : refusal? f = none)
    {t : Template} (ht : t ∈ f.templates) (m : Message) : .message m ∉ prepared bundle direction t.body := by
  intro hm
  obtain ⟨inserted, hi, hfold⟩ := List.mem_map.1 (((uncut_mem rfl).apply_mergeText _).mp hm)
  obtain ⟨node, hnode, rfl⟩ := List.mem_map.1 hi
  have hplain := (unsupported?_eq_none_iff node).1
    (List.findSome?_eq_none_iff.1 h node (TemplateFile.mem_nodes.2 ⟨t, ht, hnode⟩))
  cases node with
  | message m' =>
    -- A message of plain text is a text after insertion, and folding keeps it one.
    obtain ⟨text, htext⟩ := hplain m' rfl
    obtain ⟨id, body⟩ := m'
    subst htext
    cases hfold
  | bidi ltr rtl => cases direction <;> cases hfold
  | _ => cases hfold

theorem afterInsertion_of_translate {cause : Php.EmitError} (h : refusal? f = none)
    (ht : translate c f = .error cause) : AfterInsertion cause := by
  obtain ⟨prepared, hprepared, hfault⟩ := Php.compile_eq_error (Php.emit_eq_error ht)
  obtain ⟨t, hmem, rfl⟩ := List.mem_map.1 hprepared
  rcases hfault with ⟨u, -, rfl⟩ | ⟨node, hnode, before, hv⟩
  · exact .conflictingMessageText u.id
  · rcases Php.valueAfter_eq_error hv with ⟨m, rfl, -⟩ | ⟨expression, injected, -, rfl | rfl⟩
    · exact absurd hnode (message_notMem_prepared _ _ h hmem m)
    · exact .injectedDataDisabled _ expression
    · exact .invalidExpression expression

/-! ## Files alone -/

section Alone

variable (resolver : Resolver) (options : Options) (bundle : Option Bundle)

/-- A batch of one file. -/
def alone (f : TemplateFile) : Except (PipelineError Php.EmitError) (List String) :=
  generate resolver options bundle [f]

variable {resolver options bundle}

theorem alone_of_refusal {u : UnsupportedConstruct} (h : refusal? f = some u) :
    alone resolver options bundle f = .error (.unsupportedConstruct u) :=
  generate_of_refusal (by rw [List.findSome?_cons, h])

theorem alone_of_supported (h : refusal? f = none) : alone resolver options bundle f =
    ([f].mapM (translate ((pipeline resolver).context options bundle))).mapError (.collaborator .emission) :=
  generate_of_supported (by rw [List.findSome?_cons, h]; rfl)

/-- **What a file gives alone**: its refusal, its text or its fault. -/
theorem alone_cases (resolver : Resolver) (options : Options) (bundle : Option Bundle) (f : TemplateFile) :
    (∃ u, refusal? f = some u ∧ alone resolver options bundle f = .error (.unsupportedConstruct u)) ∨
    (refusal? f = none ∧ ∃ text, translate ((pipeline resolver).context options bundle) f = .ok text ∧
      alone resolver options bundle f = .ok [text]) ∨
    (refusal? f = none ∧ ∃ cause, translate ((pipeline resolver).context options bundle) f = .error cause ∧
      alone resolver options bundle f = .error (.collaborator .emission cause)) := by
  cases hr : refusal? f with
  | some u => exact .inl ⟨u, rfl, alone_of_refusal hr⟩
  | none =>
    have halone : alone resolver options bundle f = _ := alone_of_supported hr
    cases ht : translate ((pipeline resolver).context options bundle) f with
    | ok text =>
      rw [mapM_cons_of_ok ht] at halone
      exact .inr (.inl ⟨rfl, text, rfl, halone⟩)
    | error cause =>
      rw [mapM_cons_of_error ht] at halone
      exact .inr (.inr ⟨rfl, cause, rfl, halone⟩)

theorem refusal?_eq_some_iff (u : UnsupportedConstruct) :
    refusal? f = some u ↔ alone resolver options bundle f = .error (.unsupportedConstruct u) := by
  rcases alone_cases resolver options bundle f with ⟨v, hr, ha⟩ | ⟨hr, text, -, ha⟩ | ⟨hr, cause, -, ha⟩ <;>
    simp [hr, ha]

theorem refusal?_eq_none_iff :
    refusal? f = none ↔ ∀ u, alone resolver options bundle f ≠ .error (.unsupportedConstruct u) := by
  rw [Option.eq_none_iff_forall_ne_some]
  exact forall_congr' fun u => not_congr (refusal?_eq_some_iff u)

theorem alone_eq_ok_iff {texts : List String} : alone resolver options bundle f = .ok texts ↔ refusal? f = none ∧
    ∃ text, texts = [text] ∧ translate ((pipeline resolver).context options bundle) f = .ok text := by
  rcases alone_cases resolver options bundle f with ⟨v, hr, ha⟩ | ⟨hr, text, ht, ha⟩ | ⟨hr, cause, ht, ha⟩
  · simp [hr, ha]
  · simp [hr, ht, ha, eq_comm]
  · simp [hr, ht, ha]

theorem alone_eq_emission_iff {cause : Php.EmitError} :
    alone resolver options bundle f = .error (.collaborator .emission cause) ↔ refusal? f = none ∧
      translate ((pipeline resolver).context options bundle) f = .error cause := by
  rcases alone_cases resolver options bundle f with ⟨v, hr, ha⟩ | ⟨hr, text, ht, ha⟩ | ⟨hr, cause', ht, ha⟩
  · simp [hr, ha]
  · simp [hr, ht, ha]
  · simp [hr, ht, ha]

end Alone

/-! ## Batches -/

/-- **What a batch may give**, by what its files give alone.  Where all succeed it has all their texts in order.  Where
some are refused it is refused for the first of these, whatever emission says of the others.  Else it fails as the first
file that fails, and that is in emission. -/
inductive Batch (alone : TemplateFile → Except (PipelineError Php.EmitError) (List String)) (files : List TemplateFile) :
    Except (PipelineError Php.EmitError) (List String) → Prop
  | done {texts} : List.Forall₂ (fun f ts => alone f = .ok ts) files texts → Batch alone files (.ok texts.flatten)
  | refused {before f after u} : files = before ++ f :: after →
      (∀ g ∈ before, ∀ v, alone g ≠ .error (.unsupportedConstruct v)) → alone f = .error (.unsupportedConstruct u) →
      Batch alone files (.error (.unsupportedConstruct u))
  | failed {before f after cause} : files = before ++ f :: after →
      (∀ g ∈ files, ∀ v, alone g ≠ .error (.unsupportedConstruct v)) → (∀ g ∈ before, ∃ texts, alone g = .ok texts) →
      alone f = .error (.collaborator .emission cause) → AfterInsertion cause →
      Batch alone files (.error (.collaborator .emission cause))

variable {resolver : Resolver} {options : Options} {bundle : Option Bundle} {files : List TemplateFile}

theorem translates_of_alone {texts : List (List String)}
    (h : List.Forall₂ (fun f ts => alone resolver options bundle f = .ok ts) files texts) :
    files.findSome? refusal? = none ∧
      files.mapM (translate ((pipeline resolver).context options bundle)) = .ok texts.flatten := by
  induction h with
  | nil => exact ⟨rfl, rfl⟩
  | cons hf _ ih =>
    obtain ⟨hr, text, rfl, ht⟩ := alone_eq_ok_iff.1 hf
    obtain ⟨hnone, hmap⟩ := ih
    refine ⟨by rw [List.findSome?_cons, hr, hnone], ?_⟩
    rw [mapM_cons_of_ok ht, hmap]
    rfl

theorem generate_of_batch {result : Except (PipelineError Php.EmitError) (List String)}
    (h : Batch (alone resolver options bundle) files result) : result = generate resolver options bundle files := by
  cases h with
  | done htexts =>
    obtain ⟨hr, ht⟩ := translates_of_alone htexts
    rw [generate_of_supported hr, ht]
    rfl
  | refused hfiles hbefore hf =>
    refine (generate_of_refusal (List.findSome?_eq_some_iff.2 ⟨_, _, _, hfiles, ?_, fun g hg => ?_⟩)).symm
    · exact (refusal?_eq_some_iff _).2 hf
    · exact refusal?_eq_none_iff.2 (hbefore g hg)
  | failed hfiles hall hbefore hf _ =>
    have hr : files.findSome? refusal? = none :=
      List.findSome?_eq_none_iff.2 fun g hg => refusal?_eq_none_iff.2 (hall g hg)
    rw [generate_of_supported hr, hfiles, mapM_of_first (fun g hg => ?_) (alone_eq_emission_iff.1 hf).2]
    · rfl
    · obtain ⟨texts, hg⟩ := hbefore g hg
      obtain ⟨-, text, -, ht⟩ := alone_eq_ok_iff.1 hg
      exact ⟨text, ht⟩

theorem exists_batch (resolver : Resolver) (options : Options) (bundle : Option Bundle) (files : List TemplateFile) :
    ∃ result, Batch (alone resolver options bundle) files result := by
  cases hr : files.findSome? refusal? with
  | some u =>
    obtain ⟨before, f, after, hfiles, hf, hbefore⟩ := List.findSome?_eq_some_iff.1 hr
    exact ⟨_, .refused hfiles (fun g hg => refusal?_eq_none_iff.1 (hbefore g hg)) (alone_of_refusal hf)⟩
  | none =>
    have hall : ∀ f ∈ files, refusal? f = none := List.findSome?_eq_none_iff.1 hr
    rcases mapM_cases (translate ((pipeline resolver).context options bundle)) files with
      ⟨texts, h⟩ | ⟨before, f, after, cause, rfl, hbefore, hf⟩
    · have hsupported := (List.forall₂_and_left _ _).2 ⟨hall, h⟩
      have halone : List.Forall₂ (fun f ts => alone resolver options bundle f = .ok ts) files (texts.map ([·])) := by
        refine List.forall₂_map_right_iff.2 (hsupported.imp fun f text hf => ?_)
        exact alone_eq_ok_iff.2 ⟨hf.1, text, rfl, hf.2⟩
      exact ⟨_, .done halone⟩
    · have hnone : refusal? f = none := hall f (by simp)
      refine ⟨_, .failed rfl (fun g hg => refusal?_eq_none_iff.1 (hall g hg)) (fun g hg => ?_)
        (alone_eq_emission_iff.2 ⟨hnone, hf⟩) (afterInsertion_of_translate hnone hf)⟩
      obtain ⟨text, ht⟩ := hbefore g hg
      exact ⟨[text], alone_eq_ok_iff.2 ⟨hall g (by simp [hg]), text, rfl, ht⟩⟩

/-- **A batch gives what its files give alone**, joined as `Batch` says, and nothing else. -/
theorem batch_iff (resolver : Resolver) (options : Options) (bundle : Option Bundle) (files : List TemplateFile)
    (result : Except (PipelineError Php.EmitError) (List String)) :
    Batch (fun f => generate resolver options bundle [f]) files result ↔
      result = generate resolver options bundle files := by
  constructor
  · exact generate_of_batch
  · rintro rfl
    obtain ⟨result, h⟩ := exists_batch resolver options bundle files
    rwa [← generate_of_batch h]

/-- A refusal wins over a fault of emission in a file before it. -/
example : generate {} {} none [⟨"a.tpl", "app", [⟨"a", [.print "user..name" false]⟩]⟩,
    ⟨"b.tpl", "app", [⟨"b", [.message ⟨"count", .plural "n" []⟩]⟩]⟩] =
      .error (.unsupportedConstruct ⟨"count", .plural⟩) := rfl

end Codegen
end Stencil
