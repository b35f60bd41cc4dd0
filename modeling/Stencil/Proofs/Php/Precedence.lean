import Stencil.Proofs.Php.Execution
/-!
# Precedence — which fault of a file is reported

The faults of a file are listed template by template: where messages are external, first the messages whose text is not
the one that their id has first in the template, and then the nodes that have no value.  A file with no fault is emitted,
and any other is refused for the first in the list (`emit_first_fault`).
-/
namespace Stencil
namespace Php

/-! ## Results with a list of faults -/

section Results

variable {ε α β : Type}

/-- The first of the faults is reported, and without one there is a result. -/
def Reports : Except ε α → List ε → Prop
  | .ok _, [] => True
  | .error cause, first :: _ => cause = first
  | _, _ => False

namespace Reports

theorem bind {x : Except ε α} {g : α → Except ε β} {faults rest : List ε} (hx : Reports x faults)
    (hg : ∀ a, Reports (g a) rest) : Reports (x >>= g) (faults ++ rest) := by
  cases x with
  | ok a =>
    cases faults with
    | nil => exact hg a
    | cons first faults => cases hx
  | error cause =>
    cases faults with
    | nil => cases hx
    | cons first faults => exact hx

theorem map {x : Except ε α} {faults : List ε} (hx : Reports x faults) (g : α → β) : Reports (x.map g) faults := by
  cases x <;> cases faults <;> exact hx

theorem bind_pure {x : Except ε α} {faults : List ε} (hx : Reports x faults) (g : α → β) :
    Reports (x >>= fun a => pure (g a)) faults := by
  cases x <;> cases faults <;> exact hx

theorem ok_iff {x : Except ε α} {faults : List ε} (hx : Reports x faults) : (∃ a, x = .ok a) ↔ faults = [] := by
  cases x <;> cases faults <;> simp_all [Reports]

theorem error_iff {x : Except ε α} {faults : List ε} (hx : Reports x faults) (cause : ε) :
    x = .error cause ↔ faults.head? = some cause := by
  cases x <;> cases faults <;> simp_all [Reports]

end Reports
end Results

/-! ## Faults -/

/-- One of the keys between the points of an expression is empty. -/
def HasEmptyKey (expression : String) : Prop := [] ∈ expression.toList.splitOn '.'

instance (expression : String) : Decidable (HasEmptyKey expression) :=
  inferInstanceAs (Decidable ([] ∈ expression.toList.splitOn '.'))

/-- A message among those of its template: a fault where the first of its id has another text. -/
def useFaults (us : List Use) (u : Use) : List EmitError :=
  match us.find? fun v => v.id == u.id with
  | some first => if first.text = u.text then [] else [.conflictingMessageText u.id]
  | none => []

def nodeFaults (o : Options) (function : String) : Node → List EmitError
  | .rawText _ | .messageText _ _ | .bidi _ _ => []
  | .message m => [.uninsertedMessage m.id]
  | .print expression injected =>
    if injected = true ∧ o.usesInjectedData = false then [.injectedDataDisabled function expression]
    else if HasEmptyKey expression then [.invalidExpression expression]
    else []

def templateFaults (o : Options) (package : String) (t : Template) : List EmitError :=
  (if o.generatesMessageDefs = true ∧ o.messagesAreExternal = true then (uses t.body).flatMap (useFaults (uses t.body))
    else []) ++
    t.body.flatMap (nodeFaults o (functionName package t.name))

/-- The faults of a file in the order of their precedence. -/
def faults (o : Options) (f : TemplateFile) : List EmitError := f.templates.flatMap (templateFaults o f.package)

/-! ## Definitions -/

/-- The messages that were defined are the first ones of their ids among those seen. -/
def FirstOf (defined seen : List Use) : Prop :=
  ∀ id, defined.find? (fun v => v.id == id) = seen.find? fun v => v.id == id

theorem FirstOf.seen {defined seen : List Use} (h : FirstOf defined seen) {u d : Use}
    (hfind : defined.find? (fun v => v.id == u.id) = some d) : FirstOf defined (seen ++ [u]) := by
  intro id
  rw [List.find?_append, ← h id]
  by_cases hid : u.id = id
  · subst hid
    rw [hfind, Option.some_or]
  · have hnone : [u].find? (fun v => v.id == id) = none := by simp [hid]
    rw [hnone, Option.or_none]

theorem FirstOf.defined {defined seen : List Use} (h : FirstOf defined seen) {u : Use}
    (hfind : defined.find? (fun v => v.id == u.id) = none) : FirstOf (u :: defined) (seen ++ [u]) := by
  intro id
  rw [List.find?_append, ← h id, List.find?_cons]
  by_cases hid : u.id = id
  · subst hid
    simp [hfind]
  · have hne : (u.id == id) = false := by simpa using hid
    simp [hne]

theorem reports_externalDefinitions : ∀ (us : List Use) {defined seen : List Use}, FirstOf defined seen →
    Reports (externalDefinitions defined us) (us.flatMap (useFaults (seen ++ us)))
  | [], _, _, _ => trivial
  | u :: us, defined, seen, h => by
    have hseen : seen ++ u :: us = (seen ++ [u]) ++ us := by simp
    have hfirst : (seen ++ u :: us).find? (fun v => v.id == u.id) =
        (defined.find? fun v => v.id == u.id).or (some u) := by
      rw [List.find?_append, ← h u.id]
      simp
    rw [List.flatMap_cons, externalDefinitions]
    cases hfind : defined.find? fun v => v.id == u.id with
    | some d =>
      have hu : useFaults (seen ++ u :: us) u = if d.text = u.text then [] else [.conflictingMessageText u.id] := by
        simp only [useFaults, hfirst, hfind, Option.some_or]
      rw [hu]
      by_cases htext : d.text = u.text
      · simp only [htext, if_true, List.nil_append]
        rw [hseen]
        exact reports_externalDefinitions us (h.seen hfind)
      · simp only [htext, if_false]
        exact rfl
    | none =>
      have hu : useFaults (seen ++ u :: us) u = [] := by
        simp only [useFaults, hfirst, hfind, Option.none_or, if_true]
      rw [hu, List.nil_append, hseen]
      exact (reports_externalDefinitions us (h.defined hfind)).map _

theorem reports_definitionsAfter (o : Options) (before : Nat) (us : List Use) :
    Reports (definitionsAfter (messageStyle o) before us)
      (if o.generatesMessageDefs = true ∧ o.messagesAreExternal = true then us.flatMap (useFaults us) else []) := by
  unfold messageStyle Options.messagesAreExternalEffective
  cases o.generatesMessageDefs <;> cases o.messagesAreExternal
  · trivial
  · trivial
  · trivial
  · have hfirst : FirstOf [] [] := fun _ => rfl
    exact reports_externalDefinitions us hfirst

/-! ## Nodes -/

theorem keys?_eq_none_iff (expression : String) : keys? expression = none ↔ HasEmptyKey expression := by
  unfold keys? HasEmptyKey
  simp only [keys_eq]
  split
  · next h => simpa [List.any_map, Function.comp_def] using h
  · next h => simpa [List.any_map, Function.comp_def] using h

theorem reports_printed (o : Options) (function expression : String) (injected : Bool) :
    Reports (printed o function expression injected) (nodeFaults o function (.print expression injected)) := by
  unfold printed nodeFaults
  by_cases hi : injected = true ∧ o.usesInjectedData = false
  · simp only [hi, Bool.not_false, Bool.and_self, if_true, and_self]
    exact rfl
  · have hb : (injected && !o.usesInjectedData) = false := by
      rw [Bool.eq_false_iff]
      simpa using hi
    simp only [hb, hi, Bool.false_eq_true, if_false]
    by_cases hkey : HasEmptyKey expression
    · simp only [(keys?_eq_none_iff expression).2 hkey, hkey, if_true]
      exact rfl
    · obtain ⟨keys, hkeys⟩ := Option.ne_none_iff_exists'.1 (mt (keys?_eq_none_iff expression).1 hkey)
      simp only [hkeys, hkey, if_false]
      trivial

variable (c : Context)

theorem reports_valueAfter (function : String) (before : Nat) (node : Node) :
    Reports (valueAfter c function before node) (nodeFaults c.options function node) := by
  cases node with
  | print expression injected => exact reports_printed c.options function expression injected
  | message m => exact rfl
  | _ => trivial

theorem reports_valuesAfter (function : String) : ∀ (body : List Node) (before : Nat),
    Reports (valuesAfter c function before body) (body.flatMap (nodeFaults c.options function))
  | [], _ => trivial
  | node :: rest, before => by
    rw [List.flatMap_cons, valuesAfter]
    refine (reports_valueAfter c function before node).bind fun value => ?_
    exact (reports_valuesAfter function rest _).bind_pure _

/-! ## Files -/

theorem reports_functionAfter (package : String) (before : Nat) (t : Template) :
    Reports (functionAfter c package before t) (templateFaults c.options package t) := by
  refine (reports_definitionsAfter c.options before (uses t.body)).bind fun defined => ?_
  exact (reports_valuesAfter c (functionName package t.name) t.body before).bind_pure _

theorem reports_functionsAfter (package : String) : ∀ (ts : List Template) (before : Nat),
    Reports (functionsAfter c package before ts) (ts.flatMap (templateFaults c.options package))
  | [], _ => trivial
  | t :: ts, before => by
    rw [List.flatMap_cons, functionsAfter]
    refine (reports_functionAfter c package before t).bind fun function => ?_
    exact (reports_functionsAfter package ts _).bind_pure _

theorem reports_emit (f : TemplateFile) : Reports (emit c f) (faults c.options f) := by
  rw [emit, compile_eq]
  exact ((reports_functionsAfter c f.package f.templates 0).map _).map File.render

/-- **Emission fails exactly where a file has a fault, and with the first one.**  An expression has an empty key where it
is empty, starts or ends with a point, or has two points in a row. -/
theorem emit_first_fault (f : TemplateFile) :
    ((∃ text, emit c f = .ok text) ↔ faults c.options f = []) ∧
    (∀ cause, emit c f = .error cause ↔ (faults c.options f).head? = some cause) ∧
    ∀ expression, HasEmptyKey expression ↔ expression = "" ∨ expression.toList.head? = some '.' ∨
      expression.toList.getLast? = some '.' ∨ ['.', '.'] <:+: expression.toList := by
  refine ⟨(reports_emit c f).ok_iff, (reports_emit c f).error_iff, fun expression => ?_⟩
  rw [HasEmptyKey, Text.nil_mem_splitOn_iff, String.toList_eq_nil_iff]

end Php
end Stencil
