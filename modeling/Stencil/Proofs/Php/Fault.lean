import Stencil.Proofs.Php.Compile
/-!
# Fault — where a compilation that fails has failed

A compilation fails in the definitions of a template, and then a message id has two texts, or in the value of a node
(`compile_eq_error`).  A node that is not a message has no other fault than that it reads injected data which nobody gives
or that its expression names no data (`valueAfter_eq_error`).
-/
namespace Stencil
namespace Php

variable {c : Context}

theorem externalDefinitions_eq_error {cause : EmitError} : ∀ {us defined : List Use},
    externalDefinitions defined us = .error cause → ∃ u ∈ us, cause = .conflictingMessageText u.id
  | u :: us, defined, h => by
    rw [externalDefinitions] at h
    split at h
    · split at h
      · obtain ⟨v, hv, hc⟩ := externalDefinitions_eq_error h
        exact ⟨v, List.mem_cons_of_mem _ hv, hc⟩
      · cases h
        exact ⟨u, List.mem_cons_self, rfl⟩
    · obtain ⟨v, hv, hc⟩ := externalDefinitions_eq_error (map_eq_error h)
      exact ⟨v, List.mem_cons_of_mem _ hv, hc⟩

theorem definitionsAfter_eq_error {style : MessageStyle} {before : Nat} {us : List Use} {cause : EmitError}
    (h : definitionsAfter style before us = .error cause) : ∃ u ∈ us, cause = .conflictingMessageText u.id := by
  cases style with
  | inline => cases h
  | unnamed => cases h
  | external => exact externalDefinitions_eq_error h

theorem printed_eq_error {o : Options} {function expression : String} {injected : Bool} {cause : EmitError}
    (h : printed o function expression injected = .error cause) :
    cause = .injectedDataDisabled function expression ∨ cause = .invalidExpression expression := by
  unfold printed at h
  split at h
  · cases h
    exact .inl rfl
  · split at h
    · cases h
      exact .inr rfl
    · cases h

theorem valueAfter_eq_error {function : String} {before : Nat} {node : Node} {cause : EmitError}
    (h : valueAfter c function before node = .error cause) : (∃ m, node = .message m ∧ cause = .uninsertedMessage m.id) ∨
      ∃ expression injected, node = .print expression injected ∧
        (cause = .injectedDataDisabled function expression ∨ cause = .invalidExpression expression) := by
  cases node with
  | rawText text => cases h
  | print expression injected => exact .inr ⟨expression, injected, rfl, printed_eq_error h⟩
  | message m =>
    cases h
    exact .inl ⟨m, rfl, rfl⟩
  | messageText id text => cases h
  | bidi ltr rtl => cases h

theorem valuesAfter_eq_error {function : String} {cause : EmitError} : ∀ {body : List Node} {before : Nat},
    valuesAfter c function before body = .error cause →
      ∃ node ∈ body, ∃ before, valueAfter c function before node = .error cause
  | node :: rest, before, h => by
    rw [valuesAfter] at h
    rcases bind_eq_error h with h | ⟨value, -, h⟩
    · exact ⟨node, List.mem_cons_self, before, h⟩
    · rcases bind_eq_error h with h | ⟨values, -, h⟩
      · obtain ⟨node', hn, hv⟩ := valuesAfter_eq_error h
        exact ⟨node', List.mem_cons_of_mem _ hn, hv⟩
      · cases h

/-- A fault of a compilation: a message id of a template that has two texts, or a node that has no value. -/
def FaultIn (c : Context) (function : String) (body : List Node) (cause : EmitError) : Prop :=
  (∃ u ∈ uses body, cause = .conflictingMessageText u.id) ∨
    ∃ node ∈ body, ∃ before, valueAfter c function before node = .error cause

theorem functionAfter_eq_error {package : String} {before : Nat} {t : Template} {cause : EmitError}
    (h : functionAfter c package before t = .error cause) :
    FaultIn c (functionName package t.name) t.body cause := by
  rcases bind_eq_error h with h | ⟨defined, -, h⟩
  · exact .inl (definitionsAfter_eq_error h)
  · rcases bind_eq_error h with h | ⟨appended, -, h⟩
    · exact .inr (valuesAfter_eq_error h)
    · cases h

theorem functionsAfter_eq_error {package : String} {cause : EmitError} : ∀ {ts : List Template} {before : Nat},
    functionsAfter c package before ts = .error cause →
      ∃ t ∈ ts, FaultIn c (functionName package t.name) t.body cause
  | t :: ts, before, h => by
    rw [functionsAfter] at h
    rcases bind_eq_error h with h | ⟨function, -, h⟩
    · exact ⟨t, List.mem_cons_self, functionAfter_eq_error h⟩
    · rcases bind_eq_error h with h | ⟨functions, -, h⟩
      · obtain ⟨t', ht, hf⟩ := functionsAfter_eq_error h
        exact ⟨t', List.mem_cons_of_mem _ ht, hf⟩
      · cases h

/-- **A compilation that fails has a fault in one of its templates.** -/
theorem compile_eq_error {f : TemplateFile} {cause : EmitError} (h : compile c f = .error cause) :
    ∃ t ∈ f.templates, FaultIn c (functionName f.package t.name) t.body cause := by
  rw [compile_eq] at h
  exact functionsAfter_eq_error (map_eq_error h)

theorem emit_eq_error {f : TemplateFile} {cause : EmitError} (h : emit c f = .error cause) :
    compile c f = .error cause := map_eq_error h

end Php
end Stencil
