import Stencil.Pipeline
/-!
# Protocol — what a run calls, and in which order

`Completes` and `Breaks` say how the calls of one stage go, each made in the state that the one before left; `Protocol`
puts the stages of a run together and `Session` the runs of one pipeline.  What a pipeline does is the one thing that
they allow (`protocol_iff`, `session_iff`).
-/
namespace Stencil

inductive Stop (ε π : Type)
  | failed (cause : ε)
  | unwound (payload : π)

namespace Stop

variable {ε δ π α : Type}

def map (g : ε → δ) : Stop ε π → Stop δ π
  | failed cause => failed (g cause)
  | unwound payload => unwound payload

def reply : Stop ε π → Reply ε π α
  | failed cause => .failed cause
  | unwound payload => .unwound payload

end Stop

section Stages

variable {σ π τ ε δ α β : Type}

inductive Completes (call : τ → σ → Reply ε π α × σ) : List τ → σ → List α → σ → Prop
  | nil (s : σ) : Completes call [] s [] s
  | cons {t : τ} {ts : List τ} {s s₁ s₂ : σ} {value : α} {values : List α} :
      call t s = (.done value, s₁) → Completes call ts s₁ values s₂ → Completes call (t :: ts) s (value :: values) s₂

/-- The calls of a stage are done up to one that is not; `called` are the trees up to that one. -/
def Breaks (call : τ → σ → Reply ε π α × σ) (ts : List τ) (s : σ) (called : List τ) (stop : Stop ε π) (s' : σ) : Prop :=
  ∃ before t after values s₁, ts = before ++ t :: after ∧ called = before ++ [t] ∧ Completes call before s values s₁ ∧
    call t s₁ = (stop.reply, s')

variable {call : τ → σ → Reply ε π α × σ} {stage : Stage} {raise : ε → δ}

theorem completes_or_breaks (call : τ → σ → Reply ε π α × σ) : ∀ (ts : List τ) (s : σ),
    (∃ values s', Completes call ts s values s') ∨ ∃ called stop s', Breaks call ts s called stop s'
  | [], s => .inl ⟨[], s, .nil s⟩
  | t :: ts, s => by
    rcases hc : call t s with ⟨reply, s₁⟩
    cases reply with
    | done value =>
      rcases completes_or_breaks call ts s₁ with ⟨values, s', h⟩ | ⟨called, stop, s', before, u, after, values, s₂, h⟩
      · exact .inl ⟨value :: values, s', .cons hc h⟩
      · obtain ⟨rfl, rfl, hbefore, hu⟩ := h
        exact .inr ⟨_, stop, s', t :: before, u, after, value :: values, s₂, rfl, rfl, .cons hc hbefore, hu⟩
    | failed cause => exact .inr ⟨[t], .failed cause, s₁, [], t, ts, [], s, rfl, rfl, .nil s, hc⟩
    | unwound payload => exact .inr ⟨[t], .unwound payload, s₁, [], t, ts, [], s, rfl, rfl, .nil s, hc⟩

theorem sweep_of_completes {ts : List τ} {s s' : σ} {values : List α} (h : Completes call ts s values s') :
    sweep stage raise call ts s = ⟨ts.map (.called stage), s', .done values⟩ := by
  induction h with
  | nil s => rfl
  | cons hc _ ih =>
    rw [sweep, hc]
    simp only [ih, List.map_cons, Reply.map]

theorem sweep_of_breaks {ts called : List τ} {s s' : σ} {stop : Stop ε π} (h : Breaks call ts s called stop s') :
    sweep stage raise call ts s = ⟨called.map (.called stage), s', (stop.map raise).reply⟩ := by
  obtain ⟨before, t, after, values, s₁, rfl, rfl, hbefore, ht⟩ := h
  induction hbefore with
  | nil s => cases stop <;> simp only [List.nil_append, sweep, ht, Stop.reply, Stop.map, List.map_cons, List.map_nil]
  | cons hc _ ih =>
    rw [List.cons_append, sweep, hc]
    simp only [ih ht, List.cons_append, List.map_cons]
    cases stop <;> rfl

theorem andThen_done (events : List (Event τ)) (s : σ) (value : α) (next : α → σ → Run σ π τ ε β) :
    (Run.mk events s (.done value)).andThen next = { next value s with events := events ++ (next value s).events } := rfl

theorem andThen_stop (events : List (Event τ)) (s : σ) (stop : Stop ε π) (next : α → σ → Run σ π τ ε β) :
    (Run.mk events s stop.reply).andThen next = ⟨events, s, stop.reply⟩ := by
  cases stop <;> rfl

/-- **A part of a run has a scope of its own**: entering it succeeds, and what stands around the part is what the entry
and the drop of its guard show. -/
theorem events_within (c : Context) (part : Run σ π τ ε α) :
    (({} : Scopes 1).enter 0 c).reply = .guard 0 ∧ (within c part).events =
      (({} : Scopes 1).enter 0 c).events.map .scope ++ part.events ++
        ((({} : Scopes 1).enter 0 c).after.drop 0).events.map .scope :=
  ⟨rfl, rfl⟩

end Stages

section Runs

variable {σ π τ ε : Type}

/-- **What happens inside the scope**: every tree is folded, every tree is simplified, every tree is emitted, up to the
first call that is not done. -/
inductive Scoped (p : Pipeline σ π τ ε) (c : Context) (trees : List τ) (s : σ) :
    Run σ π τ (PipelineError ε) (List String) → Prop
  | foldingBreaks {called stop s'} : Breaks (p.fold c) trees s called stop s' →
      Scoped p c trees s ⟨called.map (.called .folding), s', (stop.map (.collaborator .folding)).reply⟩
  | simplificationBreaks {folded s₁ called stop s'} : Completes (p.fold c) trees s folded s₁ →
      Breaks (p.simplify c) folded s₁ called stop s' →
      Scoped p c trees s ⟨trees.map (.called .folding) ++ called.map (.called .simplification), s',
        (stop.map (.collaborator .simplification)).reply⟩
  | emissionBreaks {folded s₁ simplified s₂ called stop s'} : Completes (p.fold c) trees s folded s₁ →
      Completes (p.simplify c) folded s₁ simplified s₂ → Breaks (p.emit c) simplified s₂ called stop s' →
      Scoped p c trees s ⟨trees.map (.called .folding) ++ folded.map (.called .simplification) ++
        called.map (.called .emission), s', (stop.map (.collaborator .emission)).reply⟩
  | done {folded s₁ simplified s₂ texts s'} : Completes (p.fold c) trees s folded s₁ →
      Completes (p.simplify c) folded s₁ simplified s₂ → Completes (p.emit c) simplified s₂ texts s' →
      Scoped p c trees s ⟨trees.map (.called .folding) ++ folded.map (.called .simplification) ++
        simplified.map (.called .emission), s', .done texts⟩

structure Request (τ : Type) where
  options : Options
  bundle : Option Bundle
  trees : List τ

/-- **What a run may be.**  Insertion comes first, on every tree in order, and where it breaks nothing follows.  Else the
scope is entered with the direction that the options and the locale of the bundle resolve to, and left as the last thing,
whatever happens inside. -/
inductive Protocol (p : Pipeline σ π τ ε) (q : Request τ) (s : σ) : Run σ π τ (PipelineError ε) (List String) → Prop
  | refused {called stop s'} : Breaks (p.insert q.bundle) q.trees s called stop s' →
      Protocol p q s ⟨called.map (.called .insertion), s', (stop.map .unsupportedConstruct).reply⟩
  | entered {inserted s₁ direction part} : Completes (p.insert q.bundle) q.trees s inserted s₁ →
      direction = p.resolver.resolve q.options (q.bundle.map Bundle.locale) →
      Scoped p ⟨q.options, direction, q.bundle⟩ inserted s₁ part →
      Protocol p q s ⟨q.trees.map (.called .insertion) ++ [.scope (.entered ⟨q.options, direction, q.bundle⟩)] ++
        part.events ++ [.scope .exited], part.state, part.reply⟩

theorem scoped_iff (p : Pipeline σ π τ ε) (c : Context) (trees : List τ) (s : σ)
    (r : Run σ π τ (PipelineError ε) (List String)) : Scoped p c trees s r ↔ r = p.stages c trees s := by
  have unique : ∀ r, Scoped p c trees s r → r = p.stages c trees s := by
    intro r h
    unfold Pipeline.stages
    cases h with
    | foldingBreaks hf => rw [sweep_of_breaks hf, andThen_stop]
    | simplificationBreaks hf hs => rw [sweep_of_completes hf, andThen_done, sweep_of_breaks hs, andThen_stop]
    | emissionBreaks hf hs he =>
      rw [sweep_of_completes hf, andThen_done, sweep_of_completes hs, andThen_done, sweep_of_breaks he]
      simp only [List.append_assoc]
    | done hf hs he =>
      rw [sweep_of_completes hf, andThen_done, sweep_of_completes hs, andThen_done, sweep_of_completes he]
      simp only [List.append_assoc]
  have exist : ∃ r, Scoped p c trees s r := by
    rcases completes_or_breaks (p.fold c) trees s with ⟨folded, s₁, hf⟩ | ⟨_, _, _, hf⟩
    · rcases completes_or_breaks (p.simplify c) folded s₁ with ⟨simplified, s₂, hs⟩ | ⟨_, _, _, hs⟩
      · rcases completes_or_breaks (p.emit c) simplified s₂ with ⟨_, _, he⟩ | ⟨_, _, _, he⟩
        · exact ⟨_, .done hf hs he⟩
        · exact ⟨_, .emissionBreaks hf hs he⟩
      · exact ⟨_, .simplificationBreaks hf hs⟩
    · exact ⟨_, .foldingBreaks hf⟩
  constructor
  · exact unique r
  · rintro rfl
    obtain ⟨r, hr⟩ := exist
    rwa [← unique r hr]

theorem protocol_iff (p : Pipeline σ π τ ε) (q : Request τ) (s : σ) (r : Run σ π τ (PipelineError ε) (List String)) :
    Protocol p q s r ↔ r = p.run q.options q.bundle q.trees s := by
  have unique : ∀ r, Protocol p q s r → r = p.run q.options q.bundle q.trees s := by
    intro r h
    unfold Pipeline.run
    cases h with
    | refused hi => rw [sweep_of_breaks hi, andThen_stop]
    | entered hi hd hs =>
      subst hd
      obtain rfl := (scoped_iff p _ _ _ _).1 hs
      obtain ⟨-, hevents⟩ := events_within (p.context q.options q.bundle) (p.stages (p.context q.options q.bundle) _ _)
      rw [sweep_of_completes hi, andThen_done, hevents, ← List.append_assoc, ← List.append_assoc]
      rfl
  have exist : ∃ r, Protocol p q s r := by
    rcases completes_or_breaks (p.insert q.bundle) q.trees s with ⟨inserted, s₁, hi⟩ | ⟨_, _, _, hi⟩
    · exact ⟨_, .entered hi rfl ((scoped_iff p _ inserted s₁ _).2 rfl)⟩
    · exact ⟨_, .refused hi⟩
  constructor
  · exact unique r
  · rintro rfl
    obtain ⟨r, hr⟩ := exist
    rwa [← unique r hr]

theorem Stop.reply_ne_done {α : Type} (stop : Stop ε π) (value : α) : stop.reply ≠ .done value := by
  cases stop <;> intro h <;> cases h

/-- **A run that gives texts has completed every stage.** -/
theorem completes_of_done {p : Pipeline σ π τ ε} {q : Request τ} {s : σ} {texts : List String}
    (h : (p.run q.options q.bundle q.trees s).reply = .done texts) :
    ∃ inserted s₁ folded s₂ simplified s₃ s₄, Completes (p.insert q.bundle) q.trees s inserted s₁ ∧
      Completes (p.fold (p.context q.options q.bundle)) inserted s₁ folded s₂ ∧
      Completes (p.simplify (p.context q.options q.bundle)) folded s₂ simplified s₃ ∧
      Completes (p.emit (p.context q.options q.bundle)) simplified s₃ texts s₄ := by
  have hp := (protocol_iff p q s _).2 rfl
  generalize p.run q.options q.bundle q.trees s = r at h hp
  cases hp with
  | refused hi => exact absurd h (Stop.reply_ne_done _ _)
  | entered hi hd hs =>
    subst hd
    cases hs with
    | foldingBreaks hf => exact absurd h (Stop.reply_ne_done _ _)
    | simplificationBreaks hf hs => exact absurd h (Stop.reply_ne_done _ _)
    | emissionBreaks hf hs he => exact absurd h (Stop.reply_ne_done _ _)
    | done hf hs he =>
      cases h
      exact ⟨_, _, _, _, _, _, _, hi, hf, hs, he⟩

/-- The runs of one pipeline for a row of requests, each in the state that the one before left. -/
def Pipeline.runs (p : Pipeline σ π τ ε) : List (Request τ) → σ → List (Run σ π τ (PipelineError ε) (List String))
  | [], _ => []
  | q :: qs, s =>
    let r := p.run q.options q.bundle q.trees s
    r :: p.runs qs r.state

inductive Session (p : Pipeline σ π τ ε) :
    List (Request τ) → σ → List (Run σ π τ (PipelineError ε) (List String)) → Prop
  | nil (s : σ) : Session p [] s []
  | cons {q qs s r rs} : Protocol p q s r → Session p qs r.state rs → Session p (q :: qs) s (r :: rs)

/-- **Every run of a pipeline follows the protocol, and the protocol leaves no other behaviour.** -/
theorem session_iff (p : Pipeline σ π τ ε) (qs : List (Request τ)) (s : σ)
    (rs : List (Run σ π τ (PipelineError ε) (List String))) : Session p qs s rs ↔ rs = p.runs qs s := by
  induction qs generalizing s rs with
  | nil =>
    constructor
    · intro h
      cases h
      rfl
    · rintro rfl
      exact .nil s
  | cons q qs ih =>
    constructor
    · intro h
      cases h with
      | cons hr hrs =>
        obtain rfl := (protocol_iff p q s _).1 hr
        rw [(ih _ _).1 hrs]
        rfl
    · rintro rfl
      exact .cons ((protocol_iff p q s _).2 rfl) ((ih _ _).2 rfl)

end Runs
end Stencil
