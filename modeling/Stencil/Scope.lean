import Stencil.Bundle
import Stencil.Direction
import Stencil.Options
/-!
# Scope — what a run reads while it lasts

A scope is entered with a context and left when the guard of that entry is dropped; it cannot be entered twice at a time.
`Scopes n` is `n` scopes and the guards handed out so far, numbered in the order of entry.  A scope knows only whether it
is active, a guard only its own scope and context.  Every operation says what an observer sees: one `entered` for a
successful entry and one `exited` for the drop that ends it.
-/
namespace Stencil

/-- What is fixed for the length of a scope. -/
structure Context where
  options : Options
  direction : EffectiveDirection
  bundle : Option Bundle
deriving Repr, DecidableEq

def Context.locale (c : Context) : Option String := c.bundle.map Bundle.locale

/-- What the observer of a scope sees. -/
inductive ScopeEvent
  | entered (context : Context)
  | exited
deriving Repr, DecidableEq

inductive ScopeError
  | alreadyEntered
deriving Repr, DecidableEq

def ScopeError.message : ScopeError → String
  | .alreadyEntered => "API call scope entered twice without exiting"

/-- The guard of one entry. -/
structure Guard (n : Nat) where
  scope : Fin n
  context : Context
  live : Bool := true
deriving Repr, DecidableEq

structure Scopes (n : Nat) where
  active : Vector Bool n := Vector.replicate n false
  guards : List (Guard n) := []
deriving Repr, DecidableEq

namespace Scopes

variable {n : Nat}

inductive Operation (n : Nat)
  | enter (scope : Fin n) (context : Context)
  | drop (guard : Nat)
  | read (guard : Nat)
deriving Repr, DecidableEq

inductive Reply
  /-- The number of a new guard. -/
  | guard (number : Nat)
  | refused (error : ScopeError)
  | dropped (wasLive : Bool)
  /-- What a guard reads, unless it was dropped. -/
  | context (context : Option Context)
deriving Repr, DecidableEq

/-- The reply to an operation, what an observer saw of it, and the scopes after it. -/
structure Outcome (n : Nat) where
  reply : Reply
  events : List ScopeEvent := []
  after : Scopes n

/-- The guard of a number, while it is live. -/
def live? (s : Scopes n) (guard : Nat) : Option (Guard n) := s.guards[guard]?.filter Guard.live

def enter (s : Scopes n) (scope : Fin n) (context : Context) : Outcome n :=
  if s.active[scope] then { reply := .refused .alreadyEntered, after := s }
  else {
    reply := .guard s.guards.length
    events := [.entered context]
    after := { active := s.active.set scope true, guards := s.guards ++ [{ scope, context }] } }

/-- Dropping a guard again does nothing. -/
def drop (s : Scopes n) (guard : Nat) : Outcome n :=
  match s.live? guard with
  | none => { reply := .dropped false, after := s }
  | some g => {
      reply := .dropped true
      events := [.exited]
      after := { active := s.active.set g.scope false, guards := s.guards.set guard { g with live := false } } }

def read (s : Scopes n) (guard : Nat) : Outcome n :=
  { reply := .context ((s.live? guard).map Guard.context), after := s }

def step (s : Scopes n) : Operation n → Outcome n
  | .enter scope context => s.enter scope context
  | .drop guard => s.drop guard
  | .read guard => s.read guard

/-- The scopes after a sequence of operations, and all that an observer saw. -/
def run (s : Scopes n) : List (Operation n) → List ScopeEvent × Scopes n
  | [] => ([], s)
  | op :: ops =>
    let first := s.step op
    let rest := first.after.run ops
    (first.events ++ rest.1, rest.2)

/-- Drops every guard that is still live. -/
def dropAll (s : Scopes n) : List ScopeEvent × Scopes n := s.run ((List.range s.guards.length).map .drop)

def isActive (s : Scopes n) (scope : Fin n) : Bool := s.active[scope]

@[simp] theorem isActive_set_self (active : Vector Bool n) (guards : List (Guard n)) (i : Fin n) (b : Bool) :
    isActive ⟨active.set i b, guards⟩ i = b := by
  simp [isActive]

theorem isActive_set_of_ne (s : Scopes n) (guards : List (Guard n)) {i j : Fin n} (h : j ≠ i) (b : Bool) :
    isActive ⟨s.active.set i b, guards⟩ j = s.isActive j := by
  simp [isActive, Vector.getElem_set_ne, Fin.val_ne_of_ne h.symm]

theorem enter_of_active {s : Scopes n} {i : Fin n} (h : s.isActive i = true) (c : Context) :
    s.enter i c = ⟨.refused .alreadyEntered, [], s⟩ := if_pos h

theorem enter_of_inactive {s : Scopes n} {i : Fin n} (h : s.isActive i = false) (c : Context) : s.enter i c =
    ⟨.guard s.guards.length, [.entered c], ⟨s.active.set i true, s.guards ++ [⟨i, c, true⟩]⟩⟩ :=
  if_neg (Bool.eq_false_iff.1 h)

theorem live?_eq_some_iff (s : Scopes n) (k : Nat) (g : Guard n) :
    s.live? k = some g ↔ s.guards[k]? = some g ∧ g.live = true := by
  rw [live?, Option.filter_eq_some_iff]

theorem drop_of_live {s : Scopes n} {k : Nat} {g : Guard n} (h : s.live? k = some g) : s.drop k =
    ⟨.dropped true, [.exited], ⟨s.active.set g.scope false, s.guards.set k { g with live := false }⟩⟩ := by
  rw [drop, h]

theorem drop_of_none {s : Scopes n} {k : Nat} (h : s.live? k = none) : s.drop k = ⟨.dropped false, [], s⟩ := by
  rw [drop, h]

end Scopes
end Stencil
