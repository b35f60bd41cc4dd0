import Stencil.Proofs.Php.Compile
import Stencil.Proofs.Template.Rendering
import Stencil.Proofs.Text.Split
/-!
# Execution — a compiled template shows what the template shows

The definitions bind the message of every later use to its text (`bound_of_definitionsAfter`), and then each appended value
is what its node shows (`eval_valueAfter`), so that the whole routine returns what the body shows (`eval_of_compile`).
-/
namespace Stencil
namespace Php

variable {page : Page} {parameters : List String}

/-! ## Definitions -/

def assignAll (ds : List Definition) (vars : Variables) : Variables :=
  ds.foldl (fun vars d => (d.target.name, d.text) :: vars) vars

theorem runStatements_assign (rest : List Statement) : ∀ (ds : List Definition) (vars : Variables),
    runStatements page parameters ((ds.map fun d => .assign d.target.name d.text) ++ rest) vars =
      runStatements page parameters rest (assignAll ds vars)
  | [], _ => rfl
  | d :: ds, vars => runStatements_assign rest ds ((d.target.name, d.text) :: vars)

theorem lookup_name_self (v : Variable) (text : String) (vars : Variables) :
    ((v.name, text) :: vars).lookup v.name = some text := by
  rw [List.lookup_cons, beq_self_eq_true]

theorem lookup_cons_of_ne {name key text : String} (h : key ≠ name) (vars : Variables) :
    ((name, text) :: vars).lookup key = vars.lookup key := by
  rw [List.lookup_cons, beq_eq_false_iff_ne.2 h]

theorem lookup_name_of_ne {v w : Variable} (h : v ≠ w) (text : String) (vars : Variables) :
    ((w.name, text) :: vars).lookup v.name = vars.lookup v.name :=
  lookup_cons_of_ne (fun hn => h (Variable.name_injective hn)) vars

theorem lookup_assignAll_of_ne {v : Variable} : ∀ {ds : List Definition}, (∀ d ∈ ds, v ≠ d.target) →
    ∀ vars : Variables, (assignAll ds vars).lookup v.name = vars.lookup v.name
  | [], _, _ => rfl
  | d :: ds, h, vars => by
    rw [assignAll, List.foldl_cons, ← assignAll, lookup_assignAll_of_ne fun e he => h e (List.mem_cons_of_mem _ he)]
    exact lookup_name_of_ne (h d List.mem_cons_self) d.text vars

theorem Variable.name_ne_output (v : Variable) : "output" ≠ v.name := by
  intro h
  have hl : "output".toList = v.name.toList := by rw [h]
  cases v with
  | unnamed number =>
    rw [toList_name_unnamed] at hl
    exact absurd (congrArg List.head? hl) (show some 'o' ≠ some 'M' by decide)
  | external id =>
    rw [toList_name_external] at hl
    exact absurd (congrArg List.head? hl) (show some 'o' ≠ some 'M' by decide)

theorem lookup_output_assignAll : ∀ (ds : List Definition) (vars : Variables),
    (assignAll ds vars).lookup "output" = vars.lookup "output"
  | [], _ => rfl
  | d :: ds, vars => by
    rw [assignAll, List.foldl_cons, ← assignAll, lookup_output_assignAll ds]
    exact lookup_cons_of_ne d.target.name_ne_output vars

/-- **Every use of a message finds its text**, the first of them after `before` messages of the file. -/
def Bound (style : MessageStyle) (vars : Variables) : Nat → List Use → Prop
  | _, [] => True
  | before, u :: us => (∀ v, messageAfter style before u.id u.text = .use v → vars.lookup v.name = some u.text) ∧
      Bound style vars (before + 1) us

theorem Bound.output {style : MessageStyle} {vars : Variables} (out : String) : ∀ {us : List Use} {before : Nat},
    Bound style vars before us → Bound style (("output", out) :: vars) before us
  | [], _, _ => trivial
  | _ :: _, _, ⟨h, hs⟩ =>
    ⟨fun v hv => (lookup_cons_of_ne v.name_ne_output.symm vars).trans (h v hv), hs.output out⟩

theorem lt_of_mem_unnamedDefinitions : ∀ {us : List Use} {before : Nat} {d : Definition},
    d ∈ unnamedDefinitions before us → ∃ number, before < number ∧ d.target = .unnamed number
  | u :: us, before, d, h => by
    rcases List.mem_cons.1 h with rfl | h
    · exact ⟨before + 1, Nat.lt_succ_self before, rfl⟩
    · obtain ⟨number, hn, hd⟩ := lt_of_mem_unnamedDefinitions h
      exact ⟨number, by omega, hd⟩

theorem bound_unnamedDefinitions : ∀ (us : List Use) (before : Nat) (vars : Variables),
    Bound .unnamed (assignAll (unnamedDefinitions before us) vars) before us
  | [], _, _ => trivial
  | u :: us, before, vars => by
    refine ⟨fun v hv => ?_, bound_unnamedDefinitions us (before + 1) _⟩
    obtain rfl : Variable.unnamed (before + 1) = v := Expression.use.inj hv
    rw [unnamedDefinitions, assignAll, List.foldl_cons, ← assignAll, lookup_assignAll_of_ne]
    · exact lookup_name_self _ u.text vars
    · intro d hd
      obtain ⟨number, hn, ht⟩ := lt_of_mem_unnamedDefinitions hd
      rw [ht]
      intro h
      have := Variable.unnamed.inj h
      omega

theorem bound_externalDefinitions (before : Nat) : ∀ {us defined : List Use} {ds : List Definition} {vars : Variables},
    externalDefinitions defined us = .ok ds →
    (∀ u ∈ defined, vars.lookup (Variable.external u.id).name = some u.text) →
      Bound .external (assignAll ds vars) before us ∧
        ∀ u ∈ defined, (assignAll ds vars).lookup (Variable.external u.id).name = some u.text
  | [], _, ds, _, h, hd => by
    cases h
    exact ⟨trivial, hd⟩
  | u :: us, defined, ds, vars, h, hd => by
    rw [externalDefinitions] at h
    split at h
    · next d hfind =>
      have hid : d.id = u.id := by simpa using List.find?_some hfind
      split at h
      · next htext =>
        obtain ⟨hb, hkept⟩ := bound_externalDefinitions (before + 1) h hd
        refine ⟨⟨fun v hv => ?_, hb⟩, hkept⟩
        obtain rfl : Variable.external u.id = v := Expression.use.inj hv
        rw [← hid, ← htext]
        exact hkept d (List.mem_of_find?_eq_some hfind)
      · cases h
    · next hfind =>
      obtain ⟨ds', hr, rfl⟩ := map_eq_ok h
      -- an id that is not defined yet has another variable than all that are, so that their texts stay found
      have hd' : ∀ w ∈ u :: defined, (((Variable.external u.id).name, u.text) :: vars).lookup
          (Variable.external w.id).name = some w.text := by
        intro w hw
        rcases List.mem_cons.1 hw with rfl | hw
        · exact lookup_name_self _ w.text vars
        · have hne : w.id ≠ u.id := by simpa using List.find?_eq_none.1 hfind w hw
          rw [lookup_name_of_ne fun hv => hne (Variable.external.inj hv)]
          exact hd w hw
      obtain ⟨hb, hkept⟩ := bound_externalDefinitions (before + 1) hr hd'
      refine ⟨⟨fun v hv => ?_, hb⟩, fun w hw => hkept w (List.mem_cons_of_mem _ hw)⟩
      obtain rfl : Variable.external u.id = v := Expression.use.inj hv
      exact hkept u List.mem_cons_self

theorem bound_inline (vars : Variables) : ∀ (us : List Use) (before : Nat), Bound .inline vars before us
  | [], _ => trivial
  | _ :: us, before => ⟨fun _ hv => (nomatch hv), bound_inline vars us (before + 1)⟩

/-- **The definitions of a template bind the messages that it uses.** -/
theorem bound_of_definitionsAfter {style : MessageStyle} {before : Nat} {us : List Use} {ds : List Definition}
    (h : definitionsAfter style before us = .ok ds) (vars : Variables) : Bound style (assignAll ds vars) before us := by
  cases style with
  | inline => exact bound_inline _ us before
  | unnamed =>
    cases h
    exact bound_unnamedDefinitions us before vars
  | external => exact (bound_externalDefinitions before h fun u hu => nomatch hu).1

/-! ## Bodies -/

/-- **What a print is compiled to.**  Injected data is read only where the functions take it. -/
theorem printed_eq_ok {o : Options} {function expression : String} {injected : Bool} {value : Expression}
    (h : printed o function expression injected = .ok value) :
    (injected = true → o.usesInjectedData = true) ∧
      value = .escaped (if injected then .injected else .data) ((expression.toList.splitOn '.').map String.ofList) := by
  unfold printed keys? at h
  split at h
  · cases h
  · next hi =>
    simp only [keys_eq] at h
    split at h
    · cases h
    · next hk =>
      split at hk
      · cases hk
      · cases hk
        cases h
        refine ⟨fun ht => ?_, rfl⟩
        simpa [ht] using hi

theorem eval_messageAfter {style : MessageStyle} {vars : Variables} {before : Nat} {id text : String}
    (hb : ∀ v, messageAfter style before id text = .use v → vars.lookup v.name = some text) :
    (messageAfter style before id text).term.eval page parameters vars = some text := by
  cases style with
  | inline => rfl
  | unnamed => exact hb _ rfl
  | external => exact hb _ rfl

theorem eval_bidiValue (direction : EffectiveDirection) (ltr rtl : String) (vars : Variables) :
    (bidiValue direction ltr rtl).term.eval page parameters vars = some (direction.shown page.isRtl ltr rtl) := by
  rcases direction with (_ | _) | _ <;> rfl

variable {c : Context} (bundle : Option Bundle) (page)

theorem eval_valueAfter {function : String} {before : Nat} {node : Node} {value : Expression} {vars : Variables}
    (hv : valueAfter c function before node = .ok value) (hb : Bound (messageStyle c.options) vars before (uses [node])) :
    ∃ shown, node.rendering bundle c.direction page = some shown ∧
      value.term.eval page (parameterNames c.options.usesInjectedData) vars = some shown := by
  cases node with
  | rawText text =>
    cases hv
    exact ⟨text, rfl, rfl⟩
  | print expression injected =>
    obtain ⟨hi, rfl⟩ := printed_eq_ok hv
    refine ⟨_, rfl, if_pos ?_⟩
    cases injected with
    | false => cases c.options.usesInjectedData <;> decide
    | true =>
      rw [hi rfl]
      decide
  | message m => cases hv
  | messageText id text =>
    cases hv
    exact ⟨text, rfl, eval_messageAfter hb.1⟩
  | bidi ltr rtl =>
    cases hv
    exact ⟨_, rfl, eval_bidiValue c.direction ltr rtl vars⟩

theorem bound_append {style : MessageStyle} {vars : Variables} {ws : List Use} : ∀ (us : List Use) (before : Nat),
    Bound style vars before (us ++ ws) ↔ Bound style vars before us ∧ Bound style vars (before + us.length) ws
  | [], _ => ⟨fun h => ⟨trivial, h⟩, fun h => h.2⟩
  | u :: us, before => by
    have hlength : before + (u :: us).length = before + 1 + us.length := by
      rw [List.length_cons]
      omega
    rw [List.cons_append, Bound, bound_append us (before + 1), Bound, hlength, and_assoc]

theorem runStatements_valuesAfter {function : String} : ∀ {body : List Node} {before : Nat} {values : List Expression}
    {vars : Variables} {out : String}, valuesAfter c function before body = .ok values →
    Bound (messageStyle c.options) vars before (uses body) → vars.lookup "output" = some out →
      ∃ shown, rendering bundle c.direction page body = some shown ∧
        runStatements page (parameterNames c.options.usesInjectedData)
          ((values.map fun e => .append "output" e.term) ++ [.result "output"]) vars = some (out ++ shown)
  | [], _, _, vars, out, hv, _, ho => by
    cases hv
    refine ⟨"", rfl, ?_⟩
    rw [String.append_empty]
    exact ho
  | node :: rest, before, values, vars, out, hv, hb, ho => by
    obtain ⟨value, others, hvalue, hothers, rfl⟩ := valuesAfter_cons_eq_ok hv
    rw [uses_cons] at hb
    obtain ⟨hnode, hrest⟩ := (bound_append _ _).1 hb
    obtain ⟨first, hfirst, heval⟩ := eval_valueAfter page bundle hvalue hnode
    -- the rest goes on from the output with this node's text behind it, which hides the output before
    have hlookup : (("output", out ++ first) :: vars).lookup "output" = some (out ++ first) := by
      rw [List.lookup_cons, beq_self_eq_true]
    obtain ⟨shown, hshown, hrun⟩ := runStatements_valuesAfter hothers (hrest.output (out ++ first)) hlookup
    refine ⟨first ++ shown, ?_, ?_⟩
    · rw [rendering, hfirst, hshown]
      rfl
    · rw [List.map_cons, List.cons_append, runStatements, ho, heval]
      simp only [Option.bind_eq_bind, Option.bind_some]
      rw [hrun, String.append_assoc]

/-- **A compiled template returns what the template shows**, on every page. -/
theorem eval_of_compile {package : String} {before : Nat} {t : Template} {f : Function}
    (h : functionAfter c package before t = .ok f) :
    ∃ shown, rendering bundle c.direction page t.body = some shown ∧
      (f.routine c.options.usesInjectedData).eval page = some shown := by
  obtain ⟨-, hd, ha⟩ := functionAfter_eq_ok h
  have ho : (assignAll f.definitions [("output", "")]).lookup "output" = some "" := by
    rw [lookup_output_assignAll]
    rfl
  obtain ⟨shown, hshown, hrun⟩ := runStatements_valuesAfter page bundle ha (bound_of_definitionsAfter hd [("output", "")]) ho
  refine ⟨shown, hshown, ?_⟩
  rw [String.empty_append] at hrun
  rw [Routine.eval, Function.routine, List.append_assoc, List.cons_append, runStatements, runStatements_assign]
  exact hrun

end Php
end Stencil
