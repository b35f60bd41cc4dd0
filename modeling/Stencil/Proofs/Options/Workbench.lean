import Stencil.Options.Workbench
/-!
# Workbench — what a call on one of many instances does

A setting is about one field.  `Setting.Replaces` says which options it leads to, field by field and without regard to the
rules between fields, and `Refusal` why a call is refused.  What a call does on a workbench is the one thing that `Called`
allows (`step_set_iff`).  So every instance that is ever reached is consistent, and every consistent choice of values is
reached (`workbench_protocol`).
-/
namespace Stencil

namespace Options

inductive Field
  | usesInjectedData
  | generatesMessageDefs
  | messagesAreExternal
  | staticDirection
  | useRuntimeDirectionDetection
deriving DecidableEq

def Field.Value : Field → Type
  | .staticDirection => StaticDirection
  | _ => Bool

def value (o : Options) : (field : Field) → field.Value
  | .usesInjectedData => o.usesInjectedData
  | .generatesMessageDefs => o.generatesMessageDefs
  | .messagesAreExternal => o.messagesAreExternal
  | .staticDirection => o.staticDirection
  | .useRuntimeDirectionDetection => o.useRuntimeDirectionDetection

/-- The options with one field replaced, whether or not that goes together. -/
def put (o : Options) : (field : Field) → field.Value → Options
  | .usesInjectedData, value => { o with usesInjectedData := value }
  | .generatesMessageDefs, value => { o with generatesMessageDefs := value }
  | .messagesAreExternal, value => { o with messagesAreExternal := value }
  | .staticDirection, value => { o with staticDirection := value }
  | .useRuntimeDirectionDetection, value => { o with useRuntimeDirectionDetection := value }

theorem eq_of_value_eq {o o' : Options} (h : ∀ field, o'.value field = o.value field) : o' = o := by
  obtain ⟨_, _, _, _, _⟩ := o
  obtain ⟨_, _, _, _, _⟩ := o'
  obtain rfl := h .usesInjectedData
  obtain rfl := h .generatesMessageDefs
  obtain rfl := h .messagesAreExternal
  obtain rfl := h .staticDirection
  obtain rfl := h .useRuntimeDirectionDetection
  rfl

theorem value_put_self (o : Options) (field : Field) (v : field.Value) : (o.put field v).value field = v := by
  cases field <;> rfl

theorem value_put_of_ne (o : Options) {field other : Field} (h : other ≠ field) (v : field.Value) :
    (o.put field v).value other = o.value other := by
  cases field <;> cases other <;> first | rfl | exact absurd rfl h

/-- Runtime detection stands beside a static direction. -/
def Conflicting (o : Options) : Prop := o.useRuntimeDirectionDetection = true ∧ o.staticDirection ≠ .unspecified

/-- Runtime detection has no message definitions to go with. -/
def LacksDefs (o : Options) : Prop := o.useRuntimeDirectionDetection = true ∧ o.generatesMessageDefs = false

/-- **Of two broken rules the conflict of direction sources is reported.** -/
theorem checked_eq_error_iff (o : Options) (e : ConfigurationError) : o.checked = .error e ↔
    (o.Conflicting ∧ e = .conflictingDirectionSources) ∨
      (¬ o.Conflicting ∧ o.LacksDefs ∧ e = .runtimeDirectionWithoutMessageDefs) := by
  obtain ⟨_, defs, _, direction, runtime⟩ := o
  cases runtime <;> cases defs <;> cases direction <;>
    simp [checked, Conflicting, LacksDefs, StaticDirection.isSpecified, eq_comm]

end Options

namespace StaticDirection

theorem ofInt_eq_ok_iff (number : Int) (d : StaticDirection) : ofInt number = .ok d ↔ d.toInt = number := by
  constructor
  · intro h
    unfold ofInt at h
    split at h
    · next h1 => cases h; exact h1.symm
    · split at h
      · next h2 => cases h; exact h2.symm
      · split at h
        · next h3 => cases h; exact h3.symm
        · cases h
  · rintro rfl
    cases d <;> rfl

theorem ofInt_eq_error_iff (number : Int) (e : ConfigurationError) : ofInt number = .error e ↔
    (number ≠ 1 ∧ number ≠ -1 ∧ number ≠ 0) ∧ e = .invalidStaticDirection number := by
  unfold ofInt
  by_cases h1 : number = 1
  · simp [h1]
  · by_cases h2 : number = -1
    · simp [h2]
    · by_cases h3 : number = 0
      · simp [h3]
      · simp [h1, h2, h3, eq_comm]

end StaticDirection

namespace Setting

def field : Setting → Options.Field
  | usesInjectedData _ => .usesInjectedData
  | generatesMessageDefs _ => .generatesMessageDefs
  | messagesAreExternal _ => .messagesAreExternal
  | staticDirection _ | staticDirectionValue _ => .staticDirection
  | useRuntimeDirectionDetection _ => .useRuntimeDirectionDetection

/-- The value that a setting gives to its field.  A number gives the direction that it stands for, if there is one. -/
def Gives : (setting : Setting) → setting.field.Value → Prop
  | usesInjectedData given, value => value = given
  | generatesMessageDefs given, value => value = given
  | messagesAreExternal given, value => value = given
  | staticDirection number, value => StaticDirection.toInt value = number
  | staticDirectionValue given, value => value = given
  | useRuntimeDirectionDetection given, value => value = given

/-- **The options with one field replaced**: the field of the setting holds what the setting gives, and every other field
holds what it held. -/
def Replaces (setting : Setting) (o o' : Options) : Prop :=
  setting.Gives (o'.value setting.field) ∧ ∀ field, field ≠ setting.field → o'.value field = o.value field

theorem replaces_iff (setting : Setting) (o o' : Options) :
    setting.Replaces o o' ↔ ∃ v, setting.Gives v ∧ o' = o.put setting.field v := by
  constructor
  · rintro ⟨hgives, hother⟩
    refine ⟨_, hgives, Options.eq_of_value_eq fun field => ?_⟩
    by_cases hf : field = setting.field
    · subst hf
      rw [Options.value_put_self]
    · rw [hother field hf, Options.value_put_of_ne o hf]
  · rintro ⟨v, hgives, rfl⟩
    refine ⟨?_, fun field hf => Options.value_put_of_ne o hf v⟩
    rwa [Options.value_put_self]

/-- The value of a setting as a call reads it. -/
def given : (setting : Setting) → Except ConfigurationError setting.field.Value
  | usesInjectedData given => .ok given
  | generatesMessageDefs given => .ok given
  | messagesAreExternal given => .ok given
  | staticDirection number => StaticDirection.ofInt number
  | staticDirectionValue given => .ok given
  | useRuntimeDirectionDetection given => .ok given

theorem given_eq_ok_iff (setting : Setting) (v : setting.field.Value) : setting.given = .ok v ↔ setting.Gives v := by
  cases setting with
  | staticDirection number => exact StaticDirection.ofInt_eq_ok_iff number v
  | _ =>
    refine ⟨fun h => ?_, fun h => ?_⟩
    · exact (Except.ok.inj h).symm
    · exact congrArg Except.ok h.symm

theorem given_eq_error_iff (setting : Setting) (e : ConfigurationError) : setting.given = .error e ↔
    ∃ number, setting = .staticDirection number ∧ (number ≠ 1 ∧ number ≠ -1 ∧ number ≠ 0) ∧
      e = .invalidStaticDirection number := by
  cases setting with
  | staticDirection number => exact (StaticDirection.ofInt_eq_error_iff number e).trans (by simp)
  | _ => exact ⟨fun h => (nomatch h), fun ⟨_, h, _⟩ => (nomatch h)⟩

end Setting

/-- **Why a call is refused.**  A number that stands for no direction is refused whatever the options are; else the options
with the field replaced break a rule, and the conflict of direction sources goes before missing message definitions. -/
inductive Refusal (o : Options) (setting : Setting) : ConfigurationError → Prop
  | number {number : Int} : setting = .staticDirection number → number ≠ 1 ∧ number ≠ -1 ∧ number ≠ 0 →
      Refusal o setting (.invalidStaticDirection number)
  | conflict {o' : Options} : setting.Replaces o o' → o'.Conflicting →
      Refusal o setting .conflictingDirectionSources
  | lacksDefs {o' : Options} : setting.Replaces o o' → ¬ o'.Conflicting → o'.LacksDefs →
      Refusal o setting .runtimeDirectionWithoutMessageDefs

namespace Options

theorem set_eq (o : Options) (setting : Setting) :
    o.set setting = setting.given >>= fun v => (o.put setting.field v).checked := by
  cases setting <;> rfl

theorem set_eq_of_gives (o : Options) {setting : Setting} {v : setting.field.Value} (h : setting.Gives v) :
    o.set setting = (o.put setting.field v).checked := by
  rw [set_eq, (setting.given_eq_ok_iff v).2 h]
  rfl

theorem set_eq_of_replaces {o o' : Options} {setting : Setting} (h : setting.Replaces o o') :
    o.set setting = o'.checked := by
  obtain ⟨v, hgives, rfl⟩ := (setting.replaces_iff o o').1 h
  exact set_eq_of_gives o hgives

/-- A call has options to judge, unless it was given a number that stands for no direction. -/
theorem replaces_or_number (o : Options) (setting : Setting) : (∃ o', setting.Replaces o o') ∨
    ∃ number, setting = .staticDirection number ∧ number ≠ 1 ∧ number ≠ -1 ∧ number ≠ 0 := by
  cases h : setting.given with
  | ok v => exact .inl ⟨_, (setting.replaces_iff o _).2 ⟨v, (setting.given_eq_ok_iff v).1 h, rfl⟩⟩
  | error e =>
    obtain ⟨number, hs, hn, -⟩ := (setting.given_eq_error_iff e).1 h
    exact .inr ⟨number, hs, hn⟩

theorem set_of_number (o : Options) {number : Int} (h : number ≠ 1 ∧ number ≠ -1 ∧ number ≠ 0) :
    o.set (.staticDirection number) = .error (.invalidStaticDirection number) := by
  rw [set_eq, (Setting.given_eq_error_iff _ _).2 ⟨number, rfl, h, rfl⟩]
  rfl

/-- **A call succeeds exactly when it leads to consistent options**, and to these. -/
theorem set_eq_ok_iff (o o' : Options) (setting : Setting) :
    o.set setting = .ok o' ↔ setting.Replaces o o' ∧ o'.Consistent := by
  constructor
  · intro h
    rcases replaces_or_number o setting with ⟨p, hp⟩ | ⟨number, rfl, hn⟩
    · rw [set_eq_of_replaces hp] at h
      obtain ⟨hc, rfl⟩ := (checked_eq_ok_iff p o').1 h
      exact ⟨hp, hc⟩
    · rw [set_of_number o hn] at h
      cases h
  · rintro ⟨hr, hc⟩
    rw [set_eq_of_replaces hr]
    exact (checked_eq_ok_iff o' o').2 ⟨hc, rfl⟩

theorem set_eq_error_iff (o : Options) (setting : Setting) (e : ConfigurationError) :
    o.set setting = .error e ↔ Refusal o setting e := by
  constructor
  · intro h
    rcases replaces_or_number o setting with ⟨p, hp⟩ | ⟨number, rfl, hn⟩
    · rw [set_eq_of_replaces hp] at h
      rcases (checked_eq_error_iff p e).1 h with ⟨hc, rfl⟩ | ⟨hc, hl, rfl⟩
      · exact .conflict hp hc
      · exact .lacksDefs hp hc hl
    · rw [set_of_number o hn] at h
      cases h
      exact .number rfl hn
  · intro h
    cases h with
    | number hs hn =>
      subst hs
      exact set_of_number o hn
    | conflict hr hc =>
      rw [set_eq_of_replaces hr]
      exact (checked_eq_error_iff _ _).2 (.inl ⟨hc, rfl⟩)
    | lacksDefs hr hc hl =>
      rw [set_eq_of_replaces hr]
      exact (checked_eq_error_iff _ _).2 (.inr ⟨hc, hl, rfl⟩)

end Options

namespace Workbench

/-- **What a call on an instance may do.**  Either the options with the field replaced are consistent: they become the
instance, and all other instances stay.  Or the call is refused and every instance stays. -/
inductive Called (w : Workbench) (on : Nat) (o : Options) (setting : Setting) :
    Except ConfigurationError Unit → Workbench → Prop
  | accepted {o' : Options} {w' : Workbench} : setting.Replaces o o' → o'.Consistent → w'.instances[on]? = some o' →
      (∀ other, other ≠ on → w'.instances[other]? = w.instances[other]?) → Called w on o setting (.ok ()) w'
  | refused {e : ConfigurationError} : Refusal o setting e → Called w on o setting (.error e) w

theorem eq_set {w w' : Workbench} {on : Nat} {o o' : Options} (ho : w.instances[on]? = some o)
    (hon : w'.instances[on]? = some o') (hother : ∀ other, other ≠ on → w'.instances[other]? = w.instances[other]?) :
    w' = ⟨w.instances.set on o'⟩ := by
  obtain ⟨hlt, -⟩ := List.getElem?_eq_some_iff.1 ho
  obtain ⟨instances'⟩ := w'
  refine congrArg Workbench.mk (List.ext_getElem? fun other => ?_)
  by_cases h : other = on
  · subst h
    rw [hon, List.getElem?_set_self hlt]
  · rw [hother other h, List.getElem?_set_ne (Ne.symm h)]

theorem step_set_error (w : Workbench) {on : Nat} {o : Options} (ho : w.instances[on]? = some o) {setting : Setting}
    {e : ConfigurationError} (h : o.set setting = .error e) : w.step (.set on setting) = (.error e, w) := by
  simp only [step, ho, h]

theorem step_set_ok (w : Workbench) {on : Nat} {o o' : Options} (ho : w.instances[on]? = some o) {setting : Setting}
    (h : o.set setting = .ok o') : w.step (.set on setting) = (.ok (), ⟨w.instances.set on o'⟩) := by
  simp only [step, ho, h]

theorem step_duplicate (w : Workbench) {on : Nat} {o : Options} (ho : w.instances[on]? = some o) :
    w.step (.duplicate on) = (.ok (), ⟨w.instances ++ [o]⟩) := by
  simp only [step, ho]

/-- **A call does what it may do, and nothing else.** -/
theorem step_set_iff (w w' : Workbench) {on : Nat} {o : Options} (ho : w.instances[on]? = some o) (setting : Setting)
    (result : Except ConfigurationError Unit) :
    w.step (.set on setting) = (result, w') ↔ Called w on o setting result w' := by
  constructor
  · intro h
    cases hs : o.set setting with
    | error e =>
      rw [step_set_error w ho hs] at h
      obtain ⟨rfl, rfl⟩ := Prod.mk.inj h
      exact .refused ((Options.set_eq_error_iff o setting e).1 hs)
    | ok o' =>
      rw [step_set_ok w ho hs] at h
      obtain ⟨rfl, rfl⟩ := Prod.mk.inj h
      obtain ⟨hr, hc⟩ := (Options.set_eq_ok_iff o o' setting).1 hs
      obtain ⟨hlt, -⟩ := List.getElem?_eq_some_iff.1 ho
      exact .accepted hr hc (List.getElem?_set_self hlt) fun other hne => List.getElem?_set_ne (Ne.symm hne)
  · intro h
    cases h with
    | refused hr => exact step_set_error w ho ((Options.set_eq_error_iff o setting _).2 hr)
    | accepted hr hc hon hother =>
      rw [eq_set ho hon hother]
      exact step_set_ok w ho ((Options.set_eq_ok_iff o _ setting).2 ⟨hr, hc⟩)

/-! ## Runs -/

def Consistent (w : Workbench) : Prop := ∀ o ∈ w.instances, o.Consistent

/-- What a step leaves: the workbench as it was, a copy beside the others, or one instance replaced by consistent
options. -/
theorem step_cases (w : Workbench) (s : Step) : (w.step s).2 = w ∨
    (∃ o ∈ w.instances, (w.step s).2 = ⟨w.instances ++ [o]⟩) ∨
    ∃ (on : Nat) (o' : Options), o'.Consistent ∧ (w.step s).2 = ⟨w.instances.set on o'⟩ := by
  cases s with
  | duplicate on =>
    cases ho : w.instances[on]? with
    | none =>
      refine .inl ?_
      simp only [step, ho]
    | some o => exact .inr (.inl ⟨o, List.mem_of_getElem? ho, by rw [step_duplicate w ho]⟩)
  | set on setting =>
    cases ho : w.instances[on]? with
    | none =>
      refine .inl ?_
      simp only [step, ho]
    | some o =>
      cases hs : o.set setting with
      | error e => exact .inl (by rw [step_set_error w ho hs])
      | ok o' =>
        have hc := ((Options.set_eq_ok_iff o o' setting).1 hs).2
        exact .inr (.inr ⟨on, o', hc, by rw [step_set_ok w ho hs]⟩)

theorem Consistent.step {w : Workbench} (h : w.Consistent) (s : Step) : (w.step s).2.Consistent := by
  rcases step_cases w s with he | ⟨o, ho, he⟩ | ⟨on, o', hc, he⟩
  · rw [he]
    exact h
  · rw [he]
    intro p hp
    rcases List.mem_append.1 hp with hp | hp
    · exact h p hp
    · rw [List.mem_singleton.1 hp]
      exact h o ho
  · rw [he]
    intro p hp
    rcases List.mem_or_eq_of_mem_set hp with hp | rfl
    · exact h p hp
    · exact hc

theorem Consistent.run {w : Workbench} (h : w.Consistent) : ∀ steps : List Step, (w.run steps).Consistent := by
  intro steps
  induction steps generalizing w with
  | nil => exact h
  | cons s steps ih => exact ih (h.step s)

/-- The calls that make the first instance the given options.  Runtime detection comes last, when what it needs is there. -/
def calls (o : Options) : List Step :=
  [.set 0 (.usesInjectedData o.usesInjectedData), .set 0 (.generatesMessageDefs o.generatesMessageDefs),
    .set 0 (.messagesAreExternal o.messagesAreExternal), .set 0 (.staticDirectionValue o.staticDirection),
    .set 0 (.useRuntimeDirectionDetection o.useRuntimeDirectionDetection)]

theorem run_calls {o : Options} (h : o.Consistent) : run {} (calls o) = ⟨[o]⟩ := by
  obtain ⟨injected, defs, external, direction, runtime⟩ := o
  cases runtime with
  | false => rfl
  | true =>
    obtain ⟨rfl, rfl⟩ := h rfl
    rfl

/-- The workbenches that a sequence of steps leads to from one fresh instance. -/
def Reached (w : Workbench) : Prop := ∃ steps, w = run {} steps

theorem Reached.consistent {w : Workbench} (h : w.Reached) : w.Consistent := by
  obtain ⟨steps, rfl⟩ := h
  refine Consistent.run (fun o ho => ?_) steps
  rw [List.mem_singleton.1 ho]
  decide

/-- **Options on a workbench.**  After any sequence of steps every instance is consistent, a call on an instance does what
`Called` says and nothing else, and a copy stands beside all that was there.  The options that are ever reached are the
consistent ones. -/
theorem workbench_protocol {w : Workbench} (h : w.Reached) :
    (∀ o ∈ w.instances, o.useRuntimeDirectionDetection = true →
      o.generatesMessageDefs = true ∧ o.staticDirection = .unspecified) ∧
    (∀ on o, w.instances[on]? = some o →
      (∀ setting result w', w.step (.set on setting) = (result, w') ↔ Called w on o setting result w') ∧
      w.step (.duplicate on) = (.ok (), ⟨w.instances ++ [o]⟩)) ∧
    (∀ o : Options, o.Consistent ↔ ∃ w : Workbench, w.Reached ∧ o ∈ w.instances) := by
  refine ⟨h.consistent, fun on o ho => ⟨fun setting result w' => step_set_iff w w' ho setting result, step_duplicate w ho⟩,
    fun o => ⟨fun hc => ?_, fun ⟨w, hw, ho⟩ => hw.consistent o ho⟩⟩
  exact ⟨_, ⟨calls o, (run_calls hc).symm⟩, List.mem_singleton_self o⟩

theorem workbench_protocol_detecting : ∃ w : Workbench, w.Reached ∧
    w.instances = [{ generatesMessageDefs := true },
      { generatesMessageDefs := true, useRuntimeDirectionDetection := true }] ∧
    Called w 1 { generatesMessageDefs := true, useRuntimeDirectionDetection := true } (.staticDirection (-1))
      (.error .conflictingDirectionSources) w := by
  let steps : List Step := [.set 0 (.generatesMessageDefs true), .duplicate 0,
    .set 1 (.useRuntimeDirectionDetection true), .set 1 (.generatesMessageDefs false)]
  have hreached : (run {} steps).Reached := ⟨steps, rfl⟩
  have hcalls := ((workbench_protocol hreached).2.1 1 _ rfl).1
  exact ⟨run {} steps, hreached, rfl, (hcalls _ _ _).1 rfl⟩

end Workbench
end Stencil
