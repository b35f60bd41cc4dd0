import Stencil.Proofs.Codegen.Batch
import Stencil.Proofs.Options.Loading
import Stencil.Proofs.Php.Messages
import Stencil.Proofs.Template.Canonical
/-!
# Emission — what a run hands over to its last stage

The stages before emission leave a tree without messages and with merged text, and of the nodes for both directions either
all or none: all where the direction is deferred, and then each becomes a choice that the generated code makes; none where
it is fixed.  Options that can be reached defer the direction exactly if they ask for runtime detection (`run_handover`).
-/
namespace Stencil

/-! ## Directions -/

/-- **The direction of a run**, by the first of these that speaks: the static direction, runtime detection, a locale with a
subtag, the fallback. -/
inductive Resolves (o : Options) (bundle : Option Bundle) (fallback : Direction) : EffectiveDirection → Prop
  | ltr : o.staticDirection = .ltr → Resolves o bundle fallback (.fixed .ltr)
  | rtl : o.staticDirection = .rtl → Resolves o bundle fallback (.fixed .rtl)
  | runtime : o.staticDirection = .unspecified → o.useRuntimeDirectionDetection = true →
      Resolves o bundle fallback .deferred
  | locale {b : Bundle} {d : Direction} : o.staticDirection = .unspecified → o.useRuntimeDirectionDetection = false →
      bundle = some b → Locale.subtags b.locale.toList ≠ [] → localeDirection b.locale = some d →
      Resolves o bundle fallback (.fixed d)
  | fallback : o.staticDirection = .unspecified → o.useRuntimeDirectionDetection = false →
      (∀ b ∈ bundle, Locale.subtags b.locale.toList = []) → Resolves o bundle fallback (.fixed fallback)

theorem resolves_resolve (r : Resolver) (o : Options) (bundle : Option Bundle) :
    Resolves o bundle r.fallback (r.resolve o (bundle.map Bundle.locale)) := by
  unfold Resolver.resolve
  cases hs : o.staticDirection with
  | ltr => exact .ltr hs
  | rtl => exact .rtl hs
  | unspecified =>
    cases hr : o.useRuntimeDirectionDetection with
    | true => exact .runtime hs hr
    | false =>
      cases hb : bundle with
      | none => exact .fallback hs hr fun b hmem => nomatch hmem
      | some b =>
        cases hd : localeDirection b.locale with
        | none =>
          have hnone : Locale.subtags b.locale.toList = [] := (Locale.direction_eq_none_iff _).1 hd
          have hfallback : Resolves o (some b) r.fallback (.fixed r.fallback) := by
            refine .fallback hs hr fun b' hmem => ?_
            obtain rfl := Option.some.inj hmem
            exact hnone
          simpa [hd] using hfallback
        | some d =>
          have hsome : Locale.subtags b.locale.toList ≠ [] := by
            intro hnone
            have hdirection := (Locale.direction_eq_none_iff _).2 hnone
            rw [localeDirection, hdirection] at hd
            cases hd
          have hlocale : Resolves o (some b) r.fallback (.fixed d) := .locale hs hr rfl hsome hd
          simpa [hd] using hlocale

/-- **A direction is deferred exactly if the options ask for it**, where they are consistent. -/
theorem Resolves.eq_deferred_iff {o : Options} {bundle : Option Bundle} {fallback : Direction}
    {direction : EffectiveDirection} (h : Resolves o bundle fallback direction) (hc : o.Consistent) :
    direction = .deferred ↔ o.useRuntimeDirectionDetection = true := by
  constructor
  · rintro rfl
    cases h with
    | runtime _ hr => exact hr
  · intro hr
    have hs := (hc hr).2
    cases h with
    | ltr hs' => rw [hs] at hs'; cases hs'
    | rtl hs' => rw [hs] at hs'; cases hs'
    | runtime => rfl
    | locale _ hr' => rw [hr] at hr'; cases hr'
    | fallback _ hr' => rw [hr] at hr'; cases hr'

/-! ## Bodies -/

/-- The texts of a node for both directions. -/
def Node.arms? : Node → Option (String × String)
  | .bidi ltr rtl => some (ltr, rtl)
  | _ => none

/-- **A body as emission gets it**, made of the given one. -/
structure Ready (direction : EffectiveDirection) (body ready : List Node) : Prop where
  inserted : ∀ m, .message m ∉ ready
  merged : Merged ready
  folded : direction ≠ .deferred → ∀ ltr rtl, .bidi ltr rtl ∉ ready
  kept : direction = .deferred → ready.filterMap Node.arms? = body.filterMap Node.arms?

theorem uncut_filterMap {α : Type} {p : Node → Option α} (hp : ∀ text, p (.rawText text) = none) :
    Uncut (List.filterMap p) where
  empty body := List.filterMap_cons_none (hp "")
  join s t body := by
    rw [List.filterMap_cons_none (hp s), List.filterMap_cons_none (hp t), List.filterMap_cons_none (hp (s ++ t))]
  cons node body body' h := by rw [List.filterMap_cons, List.filterMap_cons, h]

namespace Codegen

variable {c : Context} {bundle : Option Bundle} {direction : EffectiveDirection}

theorem bidi_notMem_prepared (h : direction ≠ .deferred) (body : List Node) (ltr rtl : String) :
    .bidi ltr rtl ∉ prepared bundle direction body := by
  intro hmem
  obtain ⟨node, -, hfold⟩ := List.mem_map.1 (((uncut_mem rfl).apply_mergeText _).mp hmem)
  cases node with
  | bidi ltr' rtl' =>
    cases direction with
    | fixed d => cases hfold
    | deferred => exact h rfl
  | _ => cases hfold

theorem arms_prepared (body : List Node) :
    (prepared bundle .deferred body).filterMap Node.arms? = body.filterMap Node.arms? := by
  rw [prepared, (uncut_filterMap fun _ => rfl).apply_mergeText, List.filterMap_map, List.filterMap_map]
  congr 1
  funext node
  rcases node with _ | _ | ⟨_, _ | _ | _⟩ | _ | _ <;> rfl

theorem ready_prepared {f : TemplateFile} (h : refusal? f = none) {t : Template} (ht : t ∈ f.templates) :
    Ready direction t.body (prepared bundle direction t.body) where
  inserted := message_notMem_prepared bundle direction h ht
  merged := merged_mergeText _
  folded hd := bidi_notMem_prepared hd t.body
  kept hd := by
    subst hd
    exact arms_prepared t.body

/-! ## Texts -/

/-- **A text chooses by the direction that it finds when it runs exactly where the tree has a node for both directions**,
and says first what is output for right to left. -/
def Chooses (tree : TemplateFile) (text : String) : Prop :=
  ∃ routines, Php.routines? tree.path text = some routines ∧
    List.Forall₂ (fun t r => List.Forall₂ (fun node term => ∀ ifRtl otherwise,
      term = Php.Term.byDirection ifRtl otherwise ↔ node = .bidi otherwise ifRtl) t.body r.appended)
      tree.templates routines

theorem term_eq_byDirection_iff {function : String} {before : Nat} {node : Node} {value : Php.Expression}
    (h : Php.valueAfter c function before node = .ok value)
    (hd : ∀ ltr rtl, node = .bidi ltr rtl → c.direction = .deferred) (ifRtl otherwise : String) :
    value.term = .byDirection ifRtl otherwise ↔ node = .bidi otherwise ifRtl := by
  cases node with
  | rawText text =>
    cases h
    simp [Php.Expression.term]
  | print expression injected =>
    obtain ⟨-, rfl⟩ := Php.printed_eq_ok h
    simp [Php.Expression.term]
  | message m => cases h
  | messageText id text =>
    cases h
    unfold Php.messageAfter
    cases Php.messageStyle c.options <;> simp [Php.Expression.term]
  | bidi ltr rtl =>
    cases h
    rw [hd ltr rtl rfl]
    simp [Php.bidiValue, Php.Expression.term, and_comm]

theorem terms_of_valuesAfter {function : String} : ∀ {body : List Node} {before : Nat} {values : List Php.Expression},
    Php.valuesAfter c function before body = .ok values →
      (∀ ltr rtl, .bidi ltr rtl ∈ body → c.direction = .deferred) →
        List.Forall₂ (fun node (value : Php.Expression) => ∀ ifRtl otherwise,
          value.term = .byDirection ifRtl otherwise ↔ node = .bidi otherwise ifRtl) body values
  | [], _, _, h, _ => by
    cases h
    exact .nil
  | node :: rest, _, _, h, hd => by
    obtain ⟨value, others, hv, ho, rfl⟩ := Php.valuesAfter_cons_eq_ok h
    refine .cons (term_eq_byDirection_iff hv fun ltr rtl hn => hd ltr rtl (List.mem_cons.2 (.inl hn.symm))) ?_
    exact terms_of_valuesAfter ho fun ltr rtl hmem => hd ltr rtl (List.mem_cons_of_mem node hmem)

/-- **Every node for both directions is a choice in the text**, where the direction is deferred if there is such a node. -/
theorem chooses_of_emit {tree : TemplateFile} {text : String} (h : Php.emit c tree = .ok text)
    (hd : ∀ ltr rtl, ∀ t ∈ tree.templates, .bidi ltr rtl ∈ t.body → c.direction = .deferred) : Chooses tree text := by
  obtain ⟨p, hp, rfl⟩ := Php.emit_eq_ok h
  have hfunctions := Php.functionsAfter_eq_ok (Php.compile_eq_ok hp).2.2
  refine ⟨_, Php.routines?_of_compile hp, List.forall₂_map_right_iff.2 ?_⟩
  refine ((List.forall₂_and_left _ _).2 ⟨fun t ht => ht, hfunctions⟩).imp fun t function ⟨ht, before, hc⟩ => ?_
  rw [Php.appended_routine, List.forall₂_map_right_iff]
  exact terms_of_valuesAfter (Php.functionAfter_eq_ok hc).2.2 fun ltr rtl hmem => hd ltr rtl t ht hmem

/-- **The tree that emission gets for a file**, and the text that it gives for this tree. -/
structure Arrives (c : Context) (f tree : TemplateFile) : Prop where
  path : tree.path = f.path
  package : tree.package = f.package
  bodies : List.Forall₂ (fun t t' => t'.name = t.name ∧ Ready c.direction t.body t'.body) f.templates tree.templates
  emitted : ∀ text, Php.emit c tree = .ok text → Chooses tree text

theorem arrives_prepared {f : TemplateFile} (h : refusal? f = none) :
    Arrives c f (f.mapBodies (prepared bundle c.direction)) where
  path := rfl
  package := rfl
  bodies := List.forall₂_map_right_iff.2 (List.forall₂_same.2 fun t ht => ⟨rfl, ready_prepared h ht⟩)
  emitted text htext := by
    refine chooses_of_emit htext fun ltr rtl t' ht' hmem => ?_
    obtain ⟨t, -, rfl⟩ := List.mem_map.1 ht'
    -- Under a fixed direction there is no such node to be emitted.
    by_contra hd
    exact bidi_notMem_prepared hd t.body ltr rtl hmem

end Codegen

/-! ## Runs -/

section Runs

variable {σ π τ ε α : Type}

def Event.calledOn? (stage : Stage) : Event τ → Option τ
  | .called s tree => if s = stage then some tree else none
  | .scope _ => none

def Event.entered? : Event τ → Option Context
  | .scope (.entered c) => some c
  | _ => none

/-- The trees that a stage was called on in a run, in order. -/
def Run.calls (r : Run σ π τ ε α) (stage : Stage) : List τ := r.events.filterMap (Event.calledOn? stage)

def Run.contexts (r : Run σ π τ ε α) : List Context := r.events.filterMap Event.entered?

theorem filterMap_calledOn_called (stage s : Stage) (ts : List τ) :
    (ts.map (Event.called s)).filterMap (Event.calledOn? stage) = if s = stage then ts else [] := by
  rw [List.filterMap_map]
  by_cases h : s = stage
  · have hsome : Event.calledOn? stage ∘ Event.called s = (some : τ → Option τ) := by
      funext t
      exact if_pos h
    rw [hsome, if_pos h, List.filterMap_some]
  · rw [if_neg h, List.filterMap_eq_nil_iff]
    exact fun _ _ => if_neg h

theorem filterMap_calledOn_scope (stage : Stage) (e : ScopeEvent) :
    [(Event.scope e : Event τ)].filterMap (Event.calledOn? stage) = [] := rfl

theorem filterMap_entered_called (stage : Stage) (ts : List τ) :
    (ts.map (Event.called stage)).filterMap Event.entered? = [] := by
  rw [List.filterMap_map, List.filterMap_eq_nil_iff]
  exact fun _ _ => rfl

theorem calls_of_events {r : Run σ π τ ε α} {c : Context} {trees inserted folded emitted : List τ}
    (h : r.events = trees.map (.called .insertion) ++ [.scope (.entered c)] ++ (inserted.map (.called .folding) ++
      folded.map (.called .simplification) ++ emitted.map (.called .emission)) ++ [.scope .exited]) :
    r.contexts = [c] ∧ r.calls .simplification = folded ∧ r.calls .emission = emitted := by
  have hcalls : ∀ stage, r.calls stage = (if Stage.insertion = stage then trees else []) ++
      ((if Stage.folding = stage then inserted else []) ++ (if Stage.simplification = stage then folded else []) ++
        if Stage.emission = stage then emitted else []) := by
    intro stage
    simp only [Run.calls, h, List.filterMap_append, filterMap_calledOn_called, filterMap_calledOn_scope, List.append_nil]
  refine ⟨?_, (hcalls .simplification).trans (by simp), (hcalls .emission).trans (by simp)⟩
  simp only [Run.contexts, h, List.filterMap_append, filterMap_entered_called, List.append_nil, List.nil_append]
  rfl

theorem completes_map {call : τ → σ → Reply ε π α × σ} {g : τ → α} {s : σ} : ∀ {ts : List τ},
    (∀ t ∈ ts, call t s = (.done (g t), s)) → Completes call ts s (ts.map g) s
  | [], _ => .nil s
  | t :: _, h => .cons (h t List.mem_cons_self) (completes_map fun t' ht' => h t' (List.mem_cons_of_mem t ht'))

end Runs

namespace Codegen

/-- **What a run hands over to emission**: one context, whose direction is deferred exactly if runtime detection is on, and
one tree for each file.  Emission gets the trees as simplification leaves them, in order, and all of them where the run
gives texts, which are the texts of these trees. -/
structure Handover (resolver : Resolver) (o : Options) (bundle : Option Bundle) (files : List TemplateFile)
    (direction : EffectiveDirection) (trees : List TemplateFile) : Prop where
  entered : (run resolver o bundle files).contexts = [⟨o, direction, bundle⟩]
  resolves : Resolves o bundle resolver.fallback direction
  deferred_iff : direction = .deferred ↔ o.useRuntimeDirectionDetection = true
  deferred : direction = .deferred → o.generatesMessageDefs = true ∧ o.staticDirection = .unspecified
  arrive : List.Forall₂ (Arrives ⟨o, direction, bundle⟩) files trees
  simplified : ((run resolver o bundle files).calls .simplification).map simplify = trees
  emission : (run resolver o bundle files).calls .emission <+: trees
  done : ∀ texts, generate resolver o bundle files = .ok texts →
    (run resolver o bundle files).calls .emission = trees ∧
      List.Forall₂ (fun tree text => Php.emit ⟨o, direction, bundle⟩ tree = .ok text) trees texts

theorem refusal?_of_insertMessages {f : TemplateFile} (h : (insertMessages bundle f).1 = .ok ()) : refusal? f = none := by
  cases hr : refusal? f with
  | none => rfl
  | some u =>
    rw [insertMessages, ← refusal?, hr] at h
    cases h

variable {resolver : Resolver} {o : Options} {files : List TemplateFile}

/-- **The stages inside the scope**: every tree is folded and simplified, and the trees are emitted up to the first that
fails. -/
theorem exists_scoped (resolver : Resolver) (c : Context) {inserted folded trees : List TemplateFile}
    (hfolded : folded = inserted.map (foldDirection c.direction)) (htrees : trees = folded.map simplify) :
    ∃ emitted part, Scoped (pipeline resolver) c inserted () part ∧
      part.events = inserted.map (.called .folding) ++ folded.map (.called .simplification) ++
        emitted.map (.called .emission) ∧
      emitted <+: trees ∧
      ((∃ cause, part.reply = .failed cause) ∨ ∃ texts, part.reply = .done texts ∧ emitted = trees ∧
        List.Forall₂ (fun tree text => Php.emit c tree = .ok text) trees texts) := by
  have hf : Completes ((pipeline resolver).fold c) inserted () folded () := by
    rw [hfolded]
    exact completes_map fun _ _ => rfl
  have hs : Completes ((pipeline resolver).simplify c) folded () trees () := by
    rw [htrees]
    exact completes_map fun _ _ => rfl
  rcases completes_or_breaks ((pipeline resolver).emit c) trees () with ⟨texts, s', he⟩ | ⟨called, stop, s', he⟩
  · exact ⟨trees, _, .done hf hs he, rfl, List.prefix_refl _, .inr ⟨texts, rfl, rfl, forall₂_of_completes he⟩⟩
  · refine ⟨called, _, .emissionBreaks hf hs he, rfl, ?_, .inl ?_⟩
    · obtain ⟨before, t, after, _, _, rfl, rfl, -⟩ := he
      exact ⟨after, by rw [List.append_assoc, List.singleton_append]⟩
    · -- The collaborators of this pipeline always return, so emission has failed and not unwound.
      cases stop with
      | failed cause => exact ⟨_, rfl⟩
      | unwound payload => cases payload

/-- **The events of a run that is not refused**, and what it gives if every emission is done. -/
theorem events_of_supported {direction : EffectiveDirection} {inserted folded trees : List TemplateFile}
    (h : ∀ f ∈ files, refusal? f = none) (hd : direction = resolver.resolve o (bundle.map Bundle.locale))
    (hinserted : inserted = files.map (TemplateFile.mapNodes (Node.insertText bundle)))
    (hfolded : folded = inserted.map (foldDirection direction)) (htrees : trees = folded.map simplify) :
    ∃ emitted, emitted <+: trees ∧
      (run resolver o bundle files).events = files.map (.called .insertion) ++
        [.scope (.entered ⟨o, direction, bundle⟩)] ++ (inserted.map (.called .folding) ++
          folded.map (.called .simplification) ++ emitted.map (.called .emission)) ++ [.scope .exited] ∧
      ∀ texts, generate resolver o bundle files = .ok texts → emitted = trees ∧
        List.Forall₂ (fun tree text => Php.emit ⟨o, direction, bundle⟩ tree = .ok text) trees texts := by
  have hi : Completes ((pipeline resolver).insert bundle) files () inserted () := by
    rw [hinserted]
    exact completes_map fun f hf => congrArg (fun r => (reply r, ())) (inserted_of_supported (h f hf))
  obtain ⟨emitted, part, hscoped, hevents, hprefix, hreply⟩ :=
    exists_scoped resolver ⟨o, direction, bundle⟩ hfolded htrees
  have hrun := (protocol_iff (pipeline resolver) ⟨o, bundle, files⟩ () _).1 (.entered hi hd hscoped)
  refine ⟨emitted, hprefix, ?_, fun texts htexts => ?_⟩
  · rw [← hevents]
    exact (congrArg Run.events hrun).symm
  · rcases hreply with ⟨cause, hfailed⟩ | ⟨texts', hdone, hall, hemit⟩
    · have herror : generate resolver o bundle files = .error cause :=
        generate_of_reply ((congrArg Run.reply hrun).symm.trans hfailed)
      rw [herror] at htexts
      cases htexts
    · have hok : generate resolver o bundle files = .ok texts' :=
        generate_of_reply ((congrArg Run.reply hrun).symm.trans hdone)
      rw [hok] at htexts
      cases htexts
      exact ⟨hall, hemit⟩

/-- **What reaches emission is ready for it**, whatever the options that can be reached, the bundle, the fallback and the
files are, if no file is refused. -/
theorem run_handover (ho : o.Reachable) (resolver : Resolver) (bundle : Option Bundle)
    (hfiles : ∀ f ∈ files, (insertMessages bundle f).1 = .ok ()) :
    ∃ direction trees, Handover resolver o bundle files direction trees := by
  have hsupported : ∀ f ∈ files, refusal? f = none := fun f hf => refusal?_of_insertMessages (hfiles f hf)
  have hresolves := resolves_resolve resolver o bundle
  generalize hd : resolver.resolve o (bundle.map Bundle.locale) = direction at hresolves
  have hdeferred := hresolves.eq_deferred_iff ho.consistent
  have hprepared : ((files.map (TemplateFile.mapNodes (Node.insertText bundle))).map (foldDirection direction)).map
      simplify = files.map (TemplateFile.mapBodies (prepared bundle direction)) := by
    rw [List.map_map, List.map_map]
    exact List.map_congr_left fun f _ => simplify_foldDirection_insert direction f
  obtain ⟨emitted, hprefix, hevents, hdone⟩ := events_of_supported hsupported hd.symm rfl rfl hprepared.symm
  obtain ⟨hcontexts, hsimplified, hemission⟩ := calls_of_events hevents
  refine ⟨direction, _, hcontexts, hresolves, hdeferred, fun h => ho.consistent (hdeferred.1 h), ?_, ?_,
    hemission ▸ hprefix, hemission ▸ hdone⟩
  · exact List.forall₂_map_right_iff.2 (List.forall₂_same.2 fun f hf => arrives_prepared (hsupported f hf))
  · rw [hsimplified, hprepared]

theorem run_handover_welcome : ∃ o : Options, o.useRuntimeDirectionDetection = true ∧ o.Reachable ∧
    (∀ f ∈ [TemplateFile.welcome], (insertMessages none f).1 = .ok ()) ∧
    ∃ direction trees, Handover {} o none [.welcome] direction trees := by
  have hdefs : ({} : Options).set (.generatesMessageDefs true) = .ok { generatesMessageDefs := true } := rfl
  have hruntime : ({ generatesMessageDefs := true } : Options).set (.useRuntimeDirectionDetection true) =
      .ok { generatesMessageDefs := true, useRuntimeDirectionDetection := true } := rfl
  have hreachable := (Options.Reachable.fresh.set hdefs).set hruntime
  have hfiles : ∀ f ∈ [TemplateFile.welcome], (insertMessages none f).1 = .ok () := by
    intro f hf
    rw [List.mem_singleton.1 hf]
    rfl
  exact ⟨_, rfl, hreachable, hfiles, run_handover hreachable {} none hfiles⟩

end Codegen
end Stencil
