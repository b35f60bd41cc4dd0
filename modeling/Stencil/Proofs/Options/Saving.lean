import Stencil.Proofs.Options.File
/-!
# Saving — saved options, read as an options file

Options are saved under the very names that an options file has for its fields, but the static direction is saved by name
and read by number.  So no saved options are read back (`ofText_toJson`), and nothing is in the way but the direction:
with its number in its place, and with nothing else there, the same options come back (`ofText_recordWith_eq_ok_iff`).
-/
namespace Stencil
namespace Options

/-- Options as they are saved, with the given value for the static direction. -/
def recordWith (o : Options) (direction : Json) : Json :=
  .record [
    ("usesInjectedData", .bool o.usesInjectedData),
    ("generatesMessageDefs", .bool o.generatesMessageDefs),
    ("messagesAreExternal", .bool o.messagesAreExternal),
    ("staticDirection", direction),
    ("useRuntimeDirectionDetection", .bool o.useRuntimeDirectionDetection)]

/-- The options file that says what the options are, but for the number of the direction. -/
def fileWith (o : Options) (number : Int) : OptionsFile where
  usesInjectedData := o.usesInjectedData
  generatesMessageDefs := o.generatesMessageDefs
  messagesAreExternal := o.messagesAreExternal
  staticDirection := number
  useRuntimeDirectionDetection := o.useRuntimeDirectionDetection

theorem toJson_eq (o : Options) : o.toJson = o.recordWith (.str o.staticDirection.name) := rfl

/-- Saved options are read as a file exactly if their direction is read as a number. -/
theorem ofJson?_recordWith (o : Options) (direction : Json) :
    OptionsFile.ofJson? (o.recordWith direction) = direction.int32?.map o.fileWith := by
  rw [OptionsFile.ofJson?, recordWith, Json.fields?_record true (by rfl) (by decide)]
  show (direction.int32? >>= fun number => some (o.fileWith number)) = _
  cases direction.int32? <;> rfl

theorem ofText?_recordWith (o : Options) (direction : Json) {layout : Json → String} (hl : layout ∈ layouts) :
    OptionsFile.ofText? (layout (o.recordWith direction)) = direction.int32?.map o.fileWith := by
  rw [OptionsFile.ofText?, parse?_layout hl, Option.bind_some, ofJson?_recordWith]

theorem ofText_eq_invalidJson {text : String} (h : OptionsFile.ofText? text = none) : ofText text = .error .invalidJson := by
  rw [ofText]
  cases hj : Json.parse? text with
  | none => rfl
  | some j =>
    rw [OptionsFile.ofText?, hj, Option.bind_some] at h
    simp only [ofJson, h]

theorem int32?_eq_some {j : Json} {i : Int} (h : j.int32? = some i) : j = .int i := by
  unfold Json.int32? at h
  split at h
  · split at h
    · exact Option.some.inj h ▸ rfl
    · cases h
  · cases h

theorem int32?_toInt (direction : StaticDirection) : (Json.int direction.toInt).int32? = some direction.toInt := by
  cases direction <;> rfl

/-- **No saved options are read back.** -/
theorem ofText_toJson (o : Options) {layout : Json → String} (hl : layout ∈ layouts) :
    ofText (layout o.toJson) = .error .invalidJson := by
  refine ofText_eq_invalidJson ?_
  rw [toJson_eq, ofText?_recordWith _ _ hl]
  rfl

variable {o : Options}

theorem appliedTo_fileWith_iff {number : Int} : (o.fileWith number).AppliedTo o ↔ o.staticDirection.toInt = number :=
  ⟨fun h => h.staticDirection, fun h => ⟨rfl, rfl, rfl, h, rfl⟩⟩

theorem Consistent.coherent (h : o.Consistent) : (o.fileWith o.staticDirection.toInt).Coherent :=
  (OptionsFile.consistent_asked_iff (f := o.fileWith o.staticDirection.toInt) rfl).1 h

/-- **Of all values for the direction only its number gives the same options.** -/
theorem ofText_recordWith_eq_ok_iff (h : o.Consistent) {layout : Json → String} (hl : layout ∈ layouts)
    (direction : Json) : ofText (layout (o.recordWith direction)) = .ok o ↔ direction = .int o.staticDirection.toInt := by
  have hread := ofText?_recordWith o direction hl
  constructor
  · intro ho
    cases hnumber : direction.int32? with
    | none =>
      rw [hnumber] at hread
      rw [ofText_eq_invalidJson hread] at ho
      cases ho
    | some number =>
      rw [hnumber] at hread
      have happlied := ((OptionsFile.ofText_eq_ok_iff hread).1 ho).2
      rw [appliedTo_fileWith_iff.1 happlied]
      exact int32?_eq_some hnumber
  · rintro rfl
    rw [int32?_toInt] at hread
    exact (OptionsFile.ofText_eq_ok_iff hread).2 ⟨h.coherent, appliedTo_fileWith_iff.2 rfl⟩

/-- **Saved options are refused when they are loaded.**  Whatever options a program has come by, their saved text is no
options file, for it has the name of the direction where a file has the number.  Nothing else differs: with the number in
its place, and with no other value, the text is read as the very same options. -/
theorem saved_refused (h : o.Reachable) {layout : Json → String} (hl : layout ∈ layouts) :
    ofText (layout o.toJson) = .error .invalidJson ∧
    o.toJson = o.recordWith (.str o.staticDirection.name) ∧
    ∀ direction, ofText (layout (o.recordWith direction)) = .ok o ↔ direction = .int o.staticDirection.toInt :=
  ⟨ofText_toJson o hl, toJson_eq o, ofText_recordWith_eq_ok_iff h.consistent hl⟩

theorem saved_refused_rtl :
    ofText (Json.pretty (toJson { staticDirection := .rtl })) = .error .invalidJson ∧
      ofText (Json.pretty (recordWith { staticDirection := .rtl } (.int (-1)))) = .ok { staticDirection := .rtl } := by
  have hset : ({} : Options).set (.staticDirection (-1)) = .ok { staticDirection := .rtl } := rfl
  have hlayout : Json.pretty ∈ layouts := List.mem_cons_of_mem _ List.mem_cons_self
  have hrefused := saved_refused (.set .fresh hset) hlayout
  exact ⟨hrefused.1, (hrefused.2.2 _).2 rfl⟩

/-- **Fresh options are lost on the way.** -/
theorem fresh_not_reloaded : ¬ ∀ o : Options, o.Reachable → ofText o.toJson.render = .ok o := by
  intro h
  have hrefused : ofText (toJson {}).render = .error .invalidJson := ofText_toJson {} List.mem_cons_self
  rw [h {} .fresh] at hrefused
  cases hrefused

end Options
end Stencil
