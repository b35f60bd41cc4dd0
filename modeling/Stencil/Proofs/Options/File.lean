import Mathlib.Data.List.Nodup
import Stencil.Proofs.Interchange
import Stencil.Proofs.Options.Loading
/-!
# File — what an options file comes to

The settings of a file are made one after another, each under the rules between settings.  Runtime direction detection
comes last and no rule is broken without it, so what is judged is the file as a whole (`toOptions_eq`), and none is
refused for a state on the way.  A file is a record that may leave out what has its default (`ofJson?_record`), and
`ofText_outcome` tells what becomes of it.
-/
namespace Stencil
namespace OptionsFile

/-- What the text of an options file says. -/
def ofText? (text : String) : Option OptionsFile := (Json.parse? text).bind ofJson?

/-- The fields of a file under their names. -/
def members (f : OptionsFile) : List (String × Json) :=
  [("usesInjectedData", .bool f.usesInjectedData), ("generatesMessageDefs", .bool f.generatesMessageDefs),
    ("messagesAreExternal", .bool f.messagesAreExternal), ("staticDirection", .int f.staticDirection),
    ("useRuntimeDirectionDetection", .bool f.useRuntimeDirectionDetection)]

/-- Whether the number of the direction has at most thirty-two bits with its sign. -/
def InRange (f : OptionsFile) : Prop := -2147483648 ≤ f.staticDirection ∧ f.staticDirection ≤ 2147483647

/-- **Members that spell a file**: fields of it in any order, each at most once.  What is left out has its default. -/
structure Spells (written : List (String × Json)) (f : OptionsFile) : Prop where
  nodup : (written.map Prod.fst).Nodup
  given : ∀ m ∈ written, m ∈ f.members
  omitted : ∀ m ∈ f.members, m ∉ written → m ∈ ({} : OptionsFile).members

/-- The number of the direction stands for one. -/
def NamesDirection (f : OptionsFile) : Prop := f.staticDirection = -1 ∨ f.staticDirection = 0 ∨ f.staticDirection = 1

/-- **What a file has to say to be taken.** -/
structure Coherent (f : OptionsFile) : Prop where
  direction : f.NamesDirection
  detection : f.useRuntimeDirectionDetection = true → f.generatesMessageDefs = true ∧ f.staticDirection = 0

/-- **Options that are what the file says**, field by field. -/
structure AppliedTo (f : OptionsFile) (o : Options) : Prop where
  usesInjectedData : o.usesInjectedData = f.usesInjectedData
  generatesMessageDefs : o.generatesMessageDefs = f.generatesMessageDefs
  messagesAreExternal : o.messagesAreExternal = f.messagesAreExternal
  staticDirection : o.staticDirection.toInt = f.staticDirection
  useRuntimeDirectionDetection : o.useRuntimeDirectionDetection = f.useRuntimeDirectionDetection

/-- **Why a file is refused.**  A number that stands for no direction goes before all, and the conflict of direction
sources before missing message definitions, also where both rules are broken. -/
inductive Fault (f : OptionsFile) : ConfigurationError → Prop
  | number : ¬ f.NamesDirection → Fault f (.invalidStaticDirection f.staticDirection)
  | conflict : f.useRuntimeDirectionDetection = true → f.staticDirection = 1 ∨ f.staticDirection = -1 →
      Fault f .conflictingDirectionSources
  | lacksDefs : f.useRuntimeDirectionDetection = true → f.staticDirection = 0 → f.generatesMessageDefs = false →
      Fault f .runtimeDirectionWithoutMessageDefs

variable {f : OptionsFile} {written : List (String × Json)}

/-! ## Reading -/

theorem nodup_members (f : OptionsFile) : (f.members.map Prod.fst).Nodup := by
  show ["usesInjectedData", "generatesMessageDefs", "messagesAreExternal", "staticDirection",
    "useRuntimeDirectionDetection"].Nodup
  decide

/-- A field is read as the file has it, be it given or omitted. -/
theorem Spells.optional? (h : Spells written f) {name : String} {j : Json} {α : Type} {read : Json → Option α}
    {default a : α} (hfield : (name, j) ∈ f.members) (hread : read j = some a)
    (hdefault : (name, j) ∈ ({} : OptionsFile).members → a = default) :
    (⟨written⟩ : Json.Fields).optional? name default read = some a := by
  by_cases hw : (name, j) ∈ written
  · exact Json.Fields.optional?_of_mem h.nodup hw hread
  · have habsent : ∀ m ∈ written, m.1 ≠ name := by
      intro m hm hname
      have hsame : m = (name, j) := List.inj_on_of_nodup_map f.nodup_members (h.given m hm) hfield hname
      exact hw (hsame ▸ hm)
    rw [hdefault (h.omitted _ hfield hw)]
    exact Json.Fields.optional?_of_absent habsent

theorem Spells.bool? (h : Spells written f) {name : String} {b : Bool} (hfield : (name, .bool b) ∈ f.members)
    (hdefault : (name, .bool b) ∈ ({} : OptionsFile).members → b = false) :
    (⟨written⟩ : Json.Fields).optional? name false Json.bool? = some b :=
  h.optional? hfield rfl hdefault

theorem int32?_int {i : Int} (h : -2147483648 ≤ i ∧ i ≤ 2147483647) : (Json.int i).int32? = some i := if_pos h

/-- **A file is read from its fields**, given in any order and omitted where they have their defaults. -/
theorem ofJson?_record (hrange : f.InRange) (h : Spells written f) : ofJson? (.record written) = some f := by
  have hnames : ∀ m ∈ written, m.1 ∈ f.members.map Prod.fst := fun m hm => List.mem_map_of_mem (h.given m hm)
  have hinjected : (⟨written⟩ : Json.Fields).optional? "usesInjectedData" false Json.bool? = some f.usesInjectedData :=
    h.bool? (by simp [members]) (by simp [members])
  have hdefs : (⟨written⟩ : Json.Fields).optional? "generatesMessageDefs" false Json.bool? =
      some f.generatesMessageDefs := h.bool? (by simp [members]) (by simp [members])
  have hexternal : (⟨written⟩ : Json.Fields).optional? "messagesAreExternal" false Json.bool? =
      some f.messagesAreExternal := h.bool? (by simp [members]) (by simp [members])
  have hdirection : (⟨written⟩ : Json.Fields).optional? "staticDirection" 0 Json.int32? = some f.staticDirection :=
    h.optional? (j := .int f.staticDirection) (by simp [members]) (int32?_int hrange) (by simp [members, Json.int])
  have hruntime : (⟨written⟩ : Json.Fields).optional? "useRuntimeDirectionDetection" false Json.bool? =
      some f.useRuntimeDirectionDetection := h.bool? (by simp [members]) (by simp [members])
  have hfields : (Json.record written).fields? true ["usesInjectedData", "generatesMessageDefs", "messagesAreExternal",
      "staticDirection", "useRuntimeDirectionDetection"] = some ⟨written⟩ :=
    Json.fields?_record_of_mem true hnames h.nodup
  rw [ofJson?, hfields]
  simp only [Option.bind_eq_bind, Option.bind_some, hinjected, hdefs, hexternal, hdirection, hruntime]
  rfl

theorem optional?_int32_inRange {fields : Json.Fields} {name : String} {i : Int}
    (h : fields.optional? name 0 Json.int32? = some i) : -2147483648 ≤ i ∧ i ≤ 2147483647 := by
  unfold Json.Fields.optional? at h
  split at h
  · next j _ =>
    unfold Json.int32? at h
    split at h
    · split at h
      · next hi => exact Option.some.inj h ▸ hi
      · cases h
    · cases h
  · obtain rfl := Option.some.inj h
    decide

theorem inRange_of_ofJson? {j : Json} (h : ofJson? j = some f) : f.InRange := by
  obtain ⟨fields, -, h⟩ := Option.bind_eq_some_iff.1 h
  obtain ⟨injected, -, h⟩ := Option.bind_eq_some_iff.1 h
  obtain ⟨defs, -, h⟩ := Option.bind_eq_some_iff.1 h
  obtain ⟨external, -, h⟩ := Option.bind_eq_some_iff.1 h
  obtain ⟨direction, hdirection, h⟩ := Option.bind_eq_some_iff.1 h
  obtain ⟨runtime, -, h⟩ := Option.bind_eq_some_iff.1 h
  obtain rfl := Option.some.inj h
  exact optional?_int32_inRange hdirection

theorem spells_members (f : OptionsFile) : Spells f.members f :=
  ⟨f.nodup_members, fun _ hm => hm, fun _ hm hw => absurd hm hw⟩

theorem ofText?_record (hrange : f.InRange) (h : Spells written f) {layout : Json → String} (hl : layout ∈ layouts) :
    ofText? (layout (.record written)) = some f := by
  rw [ofText?, parse?_layout hl, Option.bind_some, ofJson?_record hrange h]

/-- The files that are read from some text are those whose direction is a number of thirty-two bits. -/
theorem exists_ofText?_iff (f : OptionsFile) : (∃ text, ofText? text = some f) ↔ f.InRange := by
  constructor
  · rintro ⟨text, h⟩
    obtain ⟨j, -, h⟩ := Option.bind_eq_some_iff.1 h
    exact inRange_of_ofJson? h
  · intro hrange
    exact ⟨_, ofText?_record hrange f.spells_members List.mem_cons_self⟩

/-! ## Applying -/

/-- The options that a file asks for, its number standing for the given direction. -/
def asked (f : OptionsFile) (direction : StaticDirection) : Options where
  usesInjectedData := f.usesInjectedData
  generatesMessageDefs := f.generatesMessageDefs
  messagesAreExternal := f.messagesAreExternal
  staticDirection := direction
  useRuntimeDirectionDetection := f.useRuntimeDirectionDetection

/-- **A file is judged as a whole**: while its settings are made, nothing but its number can be refused before the last. -/
theorem toOptions_eq (f : OptionsFile) :
    f.toOptions = StaticDirection.ofInt f.staticDirection >>= fun direction => (f.asked direction).checked := by
  -- No rule is broken before detection is set, so each setting but the last leaves what it was asked for.
  show (StaticDirection.ofInt f.staticDirection >>= _) >>= _ = _
  cases StaticDirection.ofInt f.staticDirection with
  | error e => rfl
  | ok direction => exact bind_pure (f.asked direction).checked

theorem namesDirection_iff : f.NamesDirection ↔ ∃ direction : StaticDirection, direction.toInt = f.staticDirection := by
  constructor
  · rintro (h | h | h)
    · exact ⟨.rtl, h.symm⟩
    · exact ⟨.unspecified, h.symm⟩
    · exact ⟨.ltr, h.symm⟩
  · rintro ⟨_ | _ | _, h⟩
    · exact .inr (.inr h.symm)
    · exact .inl h.symm
    · exact .inr (.inl h.symm)

theorem appliedTo_iff {o : Options} : f.AppliedTo o ↔ ∃ direction, direction.toInt = f.staticDirection ∧ o = f.asked direction := by
  constructor
  · rintro ⟨h1, h2, h3, h4, h5⟩
    obtain ⟨_, _, _, direction, _⟩ := o
    cases h1
    cases h2
    cases h3
    cases h5
    exact ⟨direction, h4, rfl⟩
  · rintro ⟨direction, hd, rfl⟩
    exact ⟨rfl, rfl, rfl, hd, rfl⟩

theorem toInt_eq_zero_iff {direction : StaticDirection} : direction.toInt = 0 ↔ direction = .unspecified := by
  cases direction <;> decide

/-- The options that a file asks for are consistent where the file is coherent. -/
theorem consistent_asked_iff {direction : StaticDirection} (h : direction.toInt = f.staticDirection) :
    (f.asked direction).Consistent ↔ f.Coherent := by
  have hdetection : (f.asked direction).Consistent ↔
      (f.useRuntimeDirectionDetection = true → f.generatesMessageDefs = true ∧ f.staticDirection = 0) := by
    rw [← h, toInt_eq_zero_iff]
    exact Iff.rfl
  rw [hdetection]
  exact ⟨fun hd => ⟨namesDirection_iff.2 ⟨direction, h⟩, hd⟩, fun hc => hc.detection⟩

/-- **A file is taken exactly if it is coherent**, and then field by field. -/
theorem toOptions_eq_ok_iff {o : Options} : f.toOptions = .ok o ↔ f.Coherent ∧ f.AppliedTo o := by
  rw [toOptions_eq]
  constructor
  · intro h
    obtain ⟨direction, hd, h⟩ := bind_eq_ok h
    obtain ⟨hconsistent, rfl⟩ := (Options.checked_eq_ok_iff _ _).1 h
    have hnumber := (StaticDirection.ofInt_eq_ok_iff _ _).1 hd
    exact ⟨(consistent_asked_iff hnumber).1 hconsistent, appliedTo_iff.2 ⟨direction, hnumber, rfl⟩⟩
  · rintro ⟨hcoherent, happlied⟩
    obtain ⟨direction, hnumber, rfl⟩ := appliedTo_iff.1 happlied
    rw [(StaticDirection.ofInt_eq_ok_iff _ _).2 hnumber]
    exact (Options.checked_eq_ok_iff _ _).2 ⟨(consistent_asked_iff hnumber).2 hcoherent, rfl⟩

theorem Coherent.exists_appliedTo (h : f.Coherent) : ∃ o, f.AppliedTo o := by
  obtain ⟨direction, hd⟩ := namesDirection_iff.1 h.direction
  exact ⟨_, appliedTo_iff.2 ⟨direction, hd, rfl⟩⟩

theorem AppliedTo.consistent {o : Options} (h : f.AppliedTo o) (hcoherent : f.Coherent) : o.Consistent := by
  obtain ⟨direction, hd, rfl⟩ := appliedTo_iff.1 h
  exact (consistent_asked_iff hd).2 hcoherent

/-- A file whose number stands for a direction is at fault as the options that it asks for are. -/
theorem fault_iff_of_direction {direction : StaticDirection} (h : direction.toInt = f.staticDirection)
    (e : ConfigurationError) : f.Fault e ↔ (f.asked direction).checked = .error e := by
  rw [Options.checked_eq_error_iff]
  constructor
  · intro hf
    cases hf with
    | number hn => exact absurd (namesDirection_iff.2 ⟨direction, h⟩) hn
    | conflict hr hd =>
      refine .inl ⟨⟨hr, ?_⟩, rfl⟩
      rintro rfl
      rw [← h] at hd
      exact absurd hd (by decide)
    | lacksDefs hr hd hdefs =>
      obtain rfl := toInt_eq_zero_iff.1 (h.trans hd)
      exact .inr ⟨fun hc => hc.2 rfl, ⟨hr, hdefs⟩, rfl⟩
  · rintro (⟨⟨hr, hd⟩, rfl⟩ | ⟨hc, ⟨hr, hdefs⟩, rfl⟩)
    · refine .conflict hr ?_
      rw [← h]
      cases direction with
      | ltr => exact .inl rfl
      | rtl => exact .inr rfl
      | unspecified => exact absurd rfl hd
    · by_cases hd : direction = .unspecified
      · exact .lacksDefs hr (h ▸ toInt_eq_zero_iff.2 hd) hdefs
      · exact absurd ⟨hr, hd⟩ hc

/-- **A refused file is told what is at fault with it.** -/
theorem toOptions_eq_error_iff {e : ConfigurationError} : f.toOptions = .error e ↔ f.Fault e := by
  rw [toOptions_eq]
  cases hd : StaticDirection.ofInt f.staticDirection with
  | ok direction => exact (fault_iff_of_direction ((StaticDirection.ofInt_eq_ok_iff _ _).1 hd) e).symm
  | error cause =>
    obtain ⟨⟨hltr, hrtl, hnone⟩, rfl⟩ := (StaticDirection.ofInt_eq_error_iff _ _).1 hd
    have hnames : ¬ f.NamesDirection := fun hn => hn.elim hrtl fun hn => hn.elim hnone hltr
    constructor
    · intro h
      cases h
      exact .number hnames
    · intro h
      cases h with
      | number _ => rfl
      | conflict _ h => exact absurd (h.elim (fun h => .inr (.inr h)) .inl) hnames
      | lacksDefs _ h _ => exact absurd (.inr (.inl h)) hnames

theorem ofText_eq {text : String} (h : ofText? text = some f) : Options.ofText text = f.toOptions.mapError .invalid := by
  obtain ⟨j, hj, hf⟩ := Option.bind_eq_some_iff.1 h
  simp only [Options.ofText, Options.ofJson, hj, hf]

theorem ofText_eq_ok_iff {text : String} (h : ofText? text = some f) {o : Options} :
    Options.ofText text = .ok o ↔ f.Coherent ∧ f.AppliedTo o := by
  rw [ofText_eq h, ← toOptions_eq_ok_iff]
  constructor
  · exact mapError_eq_ok
  · intro ho
    rw [ho]
    rfl

theorem ofText_eq_error_iff {text : String} (h : ofText? text = some f) {e : OptionsLoadError} :
    Options.ofText text = .error e ↔ ∃ cause, e = .invalid cause ∧ f.Fault cause := by
  rw [ofText_eq h]
  constructor
  · intro he
    obtain ⟨cause, hcause, rfl⟩ := mapError_eq_error he
    exact ⟨cause, rfl, toOptions_eq_error_iff.1 hcause⟩
  · rintro ⟨cause, rfl, hfault⟩
    rw [toOptions_eq_error_iff.2 hfault]
    rfl

/-- **What becomes of an options file.**  Every file with a number of thirty-two bits is read from a text, whatever fields
at their defaults are omitted from it.  It is taken exactly if it is coherent; then the options are what it says, and
consistent.  Else it is refused for its first fault. -/
theorem ofText_outcome :
    (∀ f : OptionsFile, (∃ text, ofText? text = some f) ↔ f.InRange) ∧
    (∀ (f : OptionsFile) (written : List (String × Json)), f.InRange → Spells written f →
      ∀ layout ∈ layouts, ofText? (layout (.record written)) = some f) ∧
    ∀ (text : String) (f : OptionsFile), ofText? text = some f →
      ((∃ o, Options.ofText text = .ok o) ↔ f.Coherent) ∧
      (∀ o, Options.ofText text = .ok o → f.AppliedTo o ∧ o.Consistent) ∧
      (∀ e, Options.ofText text = .error e ↔ ∃ cause, e = .invalid cause ∧ f.Fault cause) := by
  refine ⟨exists_ofText?_iff, fun f written hrange h layout hl => ofText?_record hrange h hl,
    fun text f h => ⟨⟨?_, ?_⟩, ?_, fun e => ofText_eq_error_iff h⟩⟩
  · rintro ⟨o, ho⟩
    exact ((ofText_eq_ok_iff h).1 ho).1
  · intro hcoherent
    obtain ⟨o, happlied⟩ := hcoherent.exists_appliedTo
    exact ⟨o, (ofText_eq_ok_iff h).2 ⟨hcoherent, happlied⟩⟩
  · intro o ho
    obtain ⟨hcoherent, happlied⟩ := (ofText_eq_ok_iff h).1 ho
    exact ⟨happlied, happlied.consistent hcoherent⟩

/-- Detection beside a static direction, its three other fields omitted: both rules are broken, and the conflict is told. -/
theorem ofText_outcome_conflict :
    ofText? (Json.render (.record [("useRuntimeDirectionDetection", .bool true), ("staticDirection", .int 1)])) =
        some { staticDirection := 1, useRuntimeDirectionDetection := true } ∧
      Options.ofText (Json.render (.record [("useRuntimeDirectionDetection", .bool true), ("staticDirection", .int 1)])) =
        .error (.invalid .conflictingDirectionSources) := by
  have hspells : Spells [("useRuntimeDirectionDetection", .bool true), ("staticDirection", .int 1)]
      { staticDirection := 1, useRuntimeDirectionDetection := true } :=
    ⟨by decide, by simp [members], by simp [members]⟩
  have hread := ofText_outcome.2.1 _ _ ⟨by decide, by decide⟩ hspells Json.render List.mem_cons_self
  exact ⟨hread, ((ofText_outcome.2.2 _ _ hread).2.2 _).2 ⟨_, rfl, .conflict rfl (.inl rfl)⟩⟩

end OptionsFile
end Stencil
