import Stencil.Direction.Resolver
import Stencil.Scope
import Stencil.Template.Insertion
/-!
# Pipeline — four collaborators over a batch of trees

A run inserts messages into every tree, enters a scope, folds the direction in every tree, simplifies every tree, emits
every tree and leaves the scope.  The first call that fails or unwinds ends the run; once entered, the scope is left in
every case, and no call follows it.  `Run.events` is the sequence of all calls and scope events in the order in which they
happen.

The pipeline is generic in the tree `τ`, in the error `ε` of the later collaborators, in a state `σ` that the
collaborators may share, and in the payload `π` of a call that unwinds instead of returning; a pipeline whose
collaborators always return takes `Empty` for it.
-/
namespace Stencil

inductive Stage
  | insertion
  | folding
  | simplification
  | emission
deriving Repr, DecidableEq

def Stage.name : Stage → String
  | .insertion => "message insertion"
  | .folding => "bidi optimization"
  | .simplification => "simplification"
  | .emission => "emission"

/-- How a call ends. -/
inductive Reply (ε π α : Type)
  | done (value : α)
  | failed (cause : ε)
  | unwound (payload : π)
deriving Repr, DecidableEq

def Reply.map {ε π α β : Type} (g : α → β) : Reply ε π α → Reply ε π β
  | .done value => .done (g value)
  | .failed cause => .failed cause
  | .unwound payload => .unwound payload

inductive Event (τ : Type)
  /-- A collaborator was called on a tree. -/
  | called (stage : Stage) (tree : τ)
  | scope (event : ScopeEvent)
deriving Repr, DecidableEq

inductive PipelineError (ε : Type)
  | unsupportedConstruct (cause : UnsupportedConstruct)
  | collaborator (stage : Stage) (cause : ε)
deriving Repr, DecidableEq

def PipelineError.message {ε : Type} (causeMessage : ε → String) : PipelineError ε → String
  | .unsupportedConstruct cause => "Unsupported construct: " ++ cause.message
  | .collaborator stage cause => stage.name ++ " failed: " ++ causeMessage cause

/-- What happened in a run or in a part of one, and how it ended. -/
structure Run (σ π τ ε α : Type) where
  events : List (Event τ)
  state : σ
  reply : Reply ε π α

/-- Goes on after a part that was done. -/
def Run.andThen {σ π τ ε α β : Type} (r : Run σ π τ ε α) (next : α → σ → Run σ π τ ε β) : Run σ π τ ε β :=
  match r.reply with
  | .done value =>
    let n := next value r.state
    { n with events := r.events ++ n.events }
  | .failed cause => ⟨r.events, r.state, .failed cause⟩
  | .unwound payload => ⟨r.events, r.state, .unwound payload⟩

/-- Calls one collaborator on every tree in order, up to the first call that is not done. -/
def sweep {σ π τ ε δ α : Type} (stage : Stage) (raise : ε → δ) (call : τ → σ → Reply ε π α × σ) :
    List τ → σ → Run σ π τ δ (List α)
  | [], s => ⟨[], s, .done []⟩
  | t :: ts, s =>
    match call t s with
    | (.failed cause, s) => ⟨[.called stage t], s, .failed (raise cause)⟩
    | (.unwound payload, s) => ⟨[.called stage t], s, .unwound payload⟩
    | (.done value, s) =>
      let rest := sweep stage raise call ts s
      ⟨.called stage t :: rest.events, rest.state, rest.reply.map (value :: ·)⟩

/-- A part of a run inside a scope: entered before, left after, however the part ends. -/
def within {σ π τ ε α : Type} (context : Context) (part : Run σ π τ ε α) : Run σ π τ ε α :=
  { part with events := .scope (.entered context) :: part.events ++ [.scope .exited] }

structure Pipeline (σ π τ ε : Type) where
  insert : Option Bundle → τ → σ → Reply UnsupportedConstruct π τ × σ
  fold : Context → τ → σ → Reply ε π τ × σ
  simplify : Context → τ → σ → Reply ε π τ × σ
  emit : Context → τ → σ → Reply ε π String × σ
  resolver : Resolver := {}

namespace Pipeline

variable {σ π τ ε : Type}

/-- The context of a run: its direction follows from the options and the locale of the bundle. -/
def context (p : Pipeline σ π τ ε) (options : Options) (bundle : Option Bundle) : Context where
  options := options
  direction := p.resolver.resolve options (bundle.map Bundle.locale)
  bundle := bundle

/-- The stages inside the scope. -/
def stages (p : Pipeline σ π τ ε) (c : Context) (trees : List τ) (s : σ) : Run σ π τ (PipelineError ε) (List String) :=
  (sweep .folding (.collaborator .folding) (p.fold c) trees s).andThen fun trees s =>
    (sweep .simplification (.collaborator .simplification) (p.simplify c) trees s).andThen fun trees s =>
      sweep .emission (.collaborator .emission) (p.emit c) trees s

/-- One run over a batch. -/
def run (p : Pipeline σ π τ ε) (options : Options) (bundle : Option Bundle) (trees : List τ) (s : σ) :
    Run σ π τ (PipelineError ε) (List String) :=
  (sweep .insertion .unsupportedConstruct (p.insert bundle) trees s).andThen fun trees s =>
    let c := p.context options bundle
    within c (p.stages c trees s)

end Pipeline
end Stencil
