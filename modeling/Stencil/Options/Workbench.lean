import Stencil.Options
/-!
# Workbench — many options that change side by side

A workbench starts with one fresh instance of options.  A step changes a setting of one instance or puts a copy of one
beside the others; no step reaches two instances, and a refused step reaches none.
-/
namespace Stencil

/-- Instances of options, numbered from zero. -/
structure Workbench where
  instances : List Options := [{}]
deriving Repr, DecidableEq

namespace Workbench

inductive Step
  | set (on : Nat) (setting : Setting)
  | duplicate (on : Nat)
deriving Repr, DecidableEq

/-- One step.  A step on an instance that is not there changes nothing. -/
def step (w : Workbench) : Step → Except ConfigurationError Unit × Workbench
  | .set on setting =>
    match w.instances[on]? with
    | none => (.ok (), w)
    | some o =>
      match o.set setting with
      | .error e => (.error e, w)
      | .ok o' => (.ok (), ⟨w.instances.set on o'⟩)
  | .duplicate on =>
    match w.instances[on]? with
    | none => (.ok (), w)
    | some o => (.ok (), ⟨w.instances ++ [o]⟩)

/-- The workbench after a sequence of steps. -/
def run (w : Workbench) (steps : List Step) : Workbench := steps.foldl (fun w s => (w.step s).2) w

end Workbench
end Stencil
