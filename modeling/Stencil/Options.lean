import Stencil.Json.Fields
/-!
# Options — the settings of a run, and which of them go together

Runtime direction detection needs message definitions and excludes a static direction: `Options.Consistent`.  Every
change of one setting is judged on the options it would lead to, so options that were built by `set` alone are
consistent.  A faulty number for the static direction is refused before anything else; of the two rules between settings,
the conflict of direction sources is reported first.
-/
namespace Stencil

/-- A direction given ahead of time, or none. -/
inductive StaticDirection
  | ltr
  | rtl
  | unspecified
deriving Repr, DecidableEq, Inhabited

inductive ConfigurationError
  | invalidStaticDirection (value : Int)
  | conflictingDirectionSources
  | runtimeDirectionWithoutMessageDefs
deriving Repr, DecidableEq

def ConfigurationError.message : ConfigurationError → String
  | .invalidStaticDirection value =>
    "Static direction must be 1 (ltr), -1 (rtl) or 0 (unspecified), got " ++ toString value
  | .conflictingDirectionSources => "Must not specify both a static direction and runtime direction detection"
  | .runtimeDirectionWithoutMessageDefs =>
    "Runtime direction detection requires message definitions to be generated"

namespace StaticDirection

def toInt : StaticDirection → Int
  | .ltr => 1
  | .rtl => -1
  | .unspecified => 0

/-- The direction that a number stands for. -/
def ofInt (value : Int) : Except ConfigurationError StaticDirection :=
  if value = 1 then .ok .ltr
  else if value = -1 then .ok .rtl
  else if value = 0 then .ok .unspecified
  else .error (.invalidStaticDirection value)

def isSpecified : StaticDirection → Bool
  | .unspecified => false
  | _ => true

def name : StaticDirection → String
  | .ltr => "ltr"
  | .rtl => "rtl"
  | .unspecified => "unspecified"

def toJson (d : StaticDirection) : Json := .str d.name

def ofJson? (j : Json) : Option StaticDirection :=
  match j.variant? with
  | some ("ltr", .null) => some .ltr
  | some ("rtl", .null) => some .rtl
  | some ("unspecified", .null) => some .unspecified
  | _ => none

end StaticDirection

structure Options where
  usesInjectedData : Bool := false
  generatesMessageDefs : Bool := false
  messagesAreExternal : Bool := false
  staticDirection : StaticDirection := .unspecified
  useRuntimeDirectionDetection : Bool := false
deriving Repr, DecidableEq, Inhabited

/-- A change of one setting. -/
inductive Setting
  | usesInjectedData (value : Bool)
  | generatesMessageDefs (value : Bool)
  | messagesAreExternal (value : Bool)
  /-- The static direction by number. -/
  | staticDirection (value : Int)
  | staticDirectionValue (value : StaticDirection)
  | useRuntimeDirectionDetection (value : Bool)
deriving Repr, DecidableEq

namespace Options

/-- Runtime detection comes with message definitions and without a static direction. -/
def Consistent (o : Options) : Prop :=
  o.useRuntimeDirectionDetection = true → o.generatesMessageDefs = true ∧ o.staticDirection = .unspecified

instance (o : Options) : Decidable o.Consistent := by unfold Consistent; infer_instance

/-- The options, unless a rule between settings is broken. -/
def checked (o : Options) : Except ConfigurationError Options :=
  if o.useRuntimeDirectionDetection && o.staticDirection.isSpecified then .error .conflictingDirectionSources
  else if o.useRuntimeDirectionDetection && !o.generatesMessageDefs then .error .runtimeDirectionWithoutMessageDefs
  else .ok o

/-- The options with one setting changed. -/
def set (o : Options) : Setting → Except ConfigurationError Options
  | .usesInjectedData value => { o with usesInjectedData := value }.checked
  | .generatesMessageDefs value => { o with generatesMessageDefs := value }.checked
  | .messagesAreExternal value => { o with messagesAreExternal := value }.checked
  | .staticDirection value => do
    let direction ← StaticDirection.ofInt value
    { o with staticDirection := direction }.checked
  | .staticDirectionValue value => { o with staticDirection := value }.checked
  | .useRuntimeDirectionDetection value => { o with useRuntimeDirectionDetection := value }.checked

/-- **Options pass the check exactly when they are consistent**, and pass unchanged. -/
theorem checked_eq_ok_iff (o o' : Options) : o.checked = .ok o' ↔ o.Consistent ∧ o' = o := by
  obtain ⟨_, defs, _, direction, runtime⟩ := o
  cases runtime <;> cases defs <;> cases direction <;> simp [checked, Consistent, StaticDirection.isSpecified, eq_comm]

/-- Messages are external only where definitions are generated at all. -/
def messagesAreExternalEffective (o : Options) : Bool := o.generatesMessageDefs && o.messagesAreExternal

end Options
end Stencil
