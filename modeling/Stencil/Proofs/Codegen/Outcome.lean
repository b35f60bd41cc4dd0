import Stencil.Proofs.Codegen.Correctness
/-!
# Outcome — the result of a batch, without its stages

No file of a batch sees another.  A batch with a file that is refused gives the first refusal (`generate_of_refusal`), and
any other batch gives what `translate` gives for one file after the other, up to the first that fails
(`generate_of_supported`).
-/
namespace Stencil
namespace Codegen

/-! ## Stages whose calls return -/

section Stages

variable {σ τ ε δ α β : Type}

theorem reply_sweep (stage : Stage) (raise : ε → δ) (g : τ → Except ε α) : ∀ (ts : List τ) (s : σ),
    (sweep stage raise (fun t s => ((reply (g t) : Reply ε Empty α), s)) ts s).reply =
      reply ((ts.mapM g).mapError raise)
  | [], _ => rfl
  | t :: ts, s => by
    rw [sweep]
    cases ht : g t with
    | error cause => rw [mapM_cons_of_error ht]; rfl
    | ok value =>
      rw [mapM_cons_of_ok ht]
      show Reply.map _ (sweep stage raise _ ts s).reply = _
      rw [reply_sweep stage raise g ts s]
      cases ts.mapM g <;> rfl

theorem reply_sweep_map (stage : Stage) (raise : ε → δ) (g : τ → α) (ts : List τ) (s : σ) :
    (sweep stage raise (fun t s => ((.done (g t) : Reply ε Empty α), s)) ts s).reply = .done (ts.map g) := by
  have h := reply_sweep stage raise (fun t => (pure (g t) : Except ε α)) ts s
  rw [List.mapM_pure] at h
  exact h

theorem reply_andThen_done {r : Run σ Empty τ ε α} {value : α} (h : r.reply = .done value)
    (next : α → σ → Run σ Empty τ ε β) : (r.andThen next).reply = (next value r.state).reply := by
  rw [Run.andThen, h]

theorem reply_andThen_failed {r : Run σ Empty τ ε α} {cause : ε} (h : r.reply = .failed cause)
    (next : α → σ → Run σ Empty τ ε β) : (r.andThen next).reply = .failed cause := by
  rw [Run.andThen, h]

end Stages

/-! ## Batches -/

/-- What keeps a file from being written at all: the first message that branches. -/
def refusal? (f : TemplateFile) : Option UnsupportedConstruct := f.nodes.findSome? Node.unsupported?

/-- The text of a file that is not refused. -/
def translate (c : Context) (f : TemplateFile) : Except Php.EmitError String :=
  Php.emit c (f.mapBodies (prepared c.bundle c.direction))

variable {resolver : Resolver} {options : Options} {bundle : Option Bundle} {files : List TemplateFile}

theorem inserted_of_refusal {f : TemplateFile} {u : UnsupportedConstruct} (h : refusal? f = some u) :
    inserted bundle f = .error u := by
  rw [inserted, insertMessages, ← refusal?, h]

theorem inserted_of_supported {f : TemplateFile} (h : refusal? f = none) :
    inserted bundle f = .ok (f.mapNodes (Node.insertText bundle)) := by
  rw [inserted, insertMessages, ← refusal?, h]

theorem generate_of_reply {x : Except (PipelineError Php.EmitError) (List String)}
    (h : (run resolver options bundle files).reply = reply x) : generate resolver options bundle files = x := by
  rw [generate, h]
  cases x <;> rfl

theorem generate_of_refusal {u : UnsupportedConstruct} (h : files.findSome? refusal? = some u) :
    generate resolver options bundle files = .error (.unsupportedConstruct u) := by
  obtain ⟨before, f, after, rfl, hf, hb⟩ := List.findSome?_eq_some_iff.1 h
  refine generate_of_reply (reply_andThen_failed ?_ _)
  rw [show (pipeline resolver).insert bundle = fun f s => (reply (inserted bundle f), s) from rfl, reply_sweep,
    mapM_of_first (fun g hg => ⟨_, inserted_of_supported (hb g hg)⟩) (inserted_of_refusal hf)]
  rfl

theorem reply_insertion (h : files.findSome? refusal? = none) :
    (sweep .insertion (PipelineError.unsupportedConstruct (ε := Php.EmitError)) ((pipeline resolver).insert bundle) files
      ()).reply = .done (files.map (TemplateFile.mapNodes (Node.insertText bundle))) := by
  have hall : files.mapM (inserted bundle) = .ok (files.map (TemplateFile.mapNodes (Node.insertText bundle))) := by
    refine mapM_of_forall₂ (List.forall₂_map_right_iff.2 (List.forall₂_same.2 fun f hf => ?_))
    exact inserted_of_supported (List.findSome?_eq_none_iff.1 h f hf)
  rw [show (pipeline resolver).insert bundle = fun f s => (reply (inserted bundle f), s) from rfl, reply_sweep, hall]
  rfl

theorem reply_stages (c : Context) (files : List TemplateFile) (s : Unit) :
    ((pipeline resolver).stages c files s).reply =
      reply ((files.mapM fun f => Php.emit c (simplify (foldDirection c.direction f))).mapError
        (.collaborator .emission)) := by
  have hfold : ∀ files s, (sweep .folding (PipelineError.collaborator .folding) ((pipeline resolver).fold c)
      files s).reply = .done (files.map (foldDirection c.direction)) := reply_sweep_map _ _ _
  have hsimplify : ∀ files s, (sweep .simplification (PipelineError.collaborator .simplification)
      ((pipeline resolver).simplify c) files s).reply = .done (files.map simplify) := reply_sweep_map _ _ _
  have hemit : ∀ files s, (sweep .emission (PipelineError.collaborator .emission) ((pipeline resolver).emit c)
      files s).reply = reply ((files.mapM (Php.emit c)).mapError (.collaborator .emission)) := reply_sweep _ _ _
  rw [Pipeline.stages, reply_andThen_done (hfold _ _), reply_andThen_done (hsimplify _ _), hemit, List.mapM_map,
    List.mapM_map]
  rfl

/-- **A batch that is not refused gives what its files give**, up to the first that fails. -/
theorem generate_of_supported (h : files.findSome? refusal? = none) : generate resolver options bundle files =
    (files.mapM (translate ((pipeline resolver).context options bundle))).mapError (.collaborator .emission) := by
  refine generate_of_reply ?_
  rw [run, Pipeline.run, reply_andThen_done (reply_insertion h)]
  show ((pipeline resolver).stages ((pipeline resolver).context options bundle) _ _).reply = _
  rw [reply_stages, List.mapM_map]
  congr 3
  funext f
  exact congrArg (Php.emit _) (simplify_foldDirection_insert _ f)

theorem length_of_generate {texts : List String} (h : generate resolver options bundle files = .ok texts) :
    texts.length = files.length := by
  cases hr : files.findSome? refusal? with
  | some u =>
    rw [generate_of_refusal hr] at h
    cases h
  | none =>
    rw [generate_of_supported hr] at h
    rcases mapM_cases (translate ((pipeline resolver).context options bundle)) files with
      ⟨ys, hys⟩ | ⟨before, f, after, cause, rfl, hb, hf⟩
    · rw [mapM_of_forall₂ hys] at h
      cases h
      exact hys.length_eq.symm
    · rw [mapM_of_first hb hf] at h
      cases h

end Codegen
end Stencil
