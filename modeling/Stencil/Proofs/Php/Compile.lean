import Stencil.Proofs.Php.Counting
import Stencil.Proofs.Php.Reading
import Stencil.Proofs.Result
/-!
# Compile — what a compilation that succeeds has made

Each compiler, unpacked: what it was made of and what it gives (`valuesAfter_cons_eq_ok`, `functionAfter_eq_ok`,
`compile_eq_ok`, `emit_eq_ok`).  So the text that is emitted for a file reads as the routines of its functions, one for
each template and in their order (`routines?_of_compile`).
-/
namespace Stencil
namespace Php

variable {c : Context}

theorem valuesAfter_cons_eq_ok {function : String} {before : Nat} {node : Node} {rest : List Node}
    {values : List Expression} (h : valuesAfter c function before (node :: rest) = .ok values) :
    ∃ value others, valueAfter c function before node = .ok value ∧
      valuesAfter c function (before + (uses [node]).length) rest = .ok others ∧ values = value :: others := by
  rw [valuesAfter] at h
  obtain ⟨value, hv, h⟩ := bind_eq_ok h
  obtain ⟨others, ho, h⟩ := bind_eq_ok h
  exact ⟨value, others, hv, ho, (pure_eq_ok h).symm⟩

theorem functionAfter_eq_ok {package : String} {before : Nat} {t : Template} {f : Function}
    (h : functionAfter c package before t = .ok f) :
    f.name = functionName package t.name ∧ definitionsAfter (messageStyle c.options) before (uses t.body) = .ok f.definitions ∧
      valuesAfter c (functionName package t.name) before t.body = .ok f.appended := by
  obtain ⟨defined, hd, h⟩ := bind_eq_ok h
  obtain ⟨appended, ha, h⟩ := bind_eq_ok h
  obtain rfl := pure_eq_ok h
  exact ⟨rfl, hd, ha⟩

/-- **The functions of a file are those of its templates**, one each, with the messages counted through the file. -/
theorem functionsAfter_eq_ok {package : String} : ∀ {ts : List Template} {before : Nat} {functions : List Function},
    functionsAfter c package before ts = .ok functions →
      List.Forall₂ (fun t f => ∃ before, functionAfter c package before t = .ok f) ts functions
  | [], _, functions, h => by
    cases h
    exact .nil
  | t :: ts, before, functions, h => by
    rw [functionsAfter] at h
    obtain ⟨function, hf, h⟩ := bind_eq_ok h
    obtain ⟨others, ho, h⟩ := bind_eq_ok h
    obtain rfl := pure_eq_ok h
    exact .cons ⟨before, hf⟩ (functionsAfter_eq_ok ho)

theorem compile_eq_ok {f : TemplateFile} {p : File} (h : compile c f = .ok p) :
    p.origin = f.path ∧ p.takesInjected = c.options.usesInjectedData ∧
      functionsAfter c f.package 0 f.templates = .ok p.functions := by
  rw [compile_eq] at h
  obtain ⟨functions, hf, rfl⟩ := map_eq_ok h
  exact ⟨rfl, rfl, hf⟩

theorem isWordChar_of_mem_name {package : String} {ts : List Template} {functions : List Function}
    (h : List.Forall₂ (fun t f => ∃ before, functionAfter c package before t = .ok f) ts functions) :
    ∀ f ∈ functions, ∀ d ∈ f.name.toList, isWordChar d = true := by
  induction h with
  | nil => exact fun f hf => nomatch hf
  | cons ht _ ih =>
    intro f hf d hd
    rcases List.mem_cons.1 hf with rfl | hf
    · obtain ⟨before, hc⟩ := ht
      rw [(functionAfter_eq_ok hc).1] at hd
      exact isWordChar_of_mem_functionName hd
    · exact ih f hf d hd

theorem routines?_of_compile {f : TemplateFile} {p : File} (h : compile c f = .ok p) :
    routines? f.path p.render = some (p.functions.map (Function.routine c.options.usesInjectedData)) := by
  obtain ⟨ho, ht, hf⟩ := compile_eq_ok h
  rw [← ho, ← ht]
  exact routines?_render (isWordChar_of_mem_name (functionsAfter_eq_ok hf))

theorem emit_eq_ok {f : TemplateFile} {text : String} (h : emit c f = .ok text) :
    ∃ p, compile c f = .ok p ∧ p.render = text := map_eq_ok h

end Php
end Stencil
