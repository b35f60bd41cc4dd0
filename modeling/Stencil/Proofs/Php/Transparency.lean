import Stencil.Proofs.Php.Compile
import Stencil.Proofs.Template.Merging
import Stencil.Proofs.Template.Nodes
/-!
# Transparency — what emission sees of the passes before it

A text for both directions is decided by emission as folding decides it, so folding first changes nothing.  Merging first
changes how raw text is cut into literals and nothing else: errors stay the same, and so does the profile of every
function, in which the raw text between two other values is one string (`emit_transparent`).
-/
namespace Stencil
namespace Php

/-! ## Two results side by side -/

section Results

variable {ε α β γ δ : Type}

/-- Both fail, with the same error, or both give results that are related. -/
def Agree (R : α → β → Prop) : Except ε α → Except ε β → Prop
  | .ok a, .ok b => R a b
  | .error cause, .error cause' => cause = cause'
  | _, _ => False

namespace Agree

theorem refl {R : α → α → Prop} (hR : ∀ a, R a a) : ∀ x : Except ε α, Agree R x x
  | .ok a => hR a
  | .error _ => rfl

theorem bind {R : α → β → Prop} {S : γ → δ → Prop} {g : α → Except ε γ} {g' : β → Except ε δ}
    (hg : ∀ a b, R a b → Agree S (g a) (g' b)) : ∀ {x : Except ε α} {y : Except ε β}, Agree R x y →
      Agree S (x >>= g) (y >>= g')
  | .ok a, .ok b, h => hg a b h
  | .error _, .error _, h => h
  | .ok _, .error _, h => nomatch h
  | .error _, .ok _, h => nomatch h

theorem map {R : α → β → Prop} {S : γ → δ → Prop} {g : α → γ} {g' : β → δ} (hg : ∀ a b, R a b → S (g a) (g' b)) :
    ∀ {x : Except ε α} {y : Except ε β}, Agree R x y → Agree S (x.map g) (y.map g')
  | .ok a, .ok b, h => hg a b h
  | .error _, .error _, h => h
  | .ok _, .error _, h => nomatch h
  | .error _, .ok _, h => nomatch h

theorem through {R : α → γ → Prop} {S : β → γ → Prop} : ∀ {x : Except ε α} {y : Except ε β} {z : Except ε γ},
    Agree R x z → Agree S y z → Agree (fun a b => ∃ p, R a p ∧ S b p) x y
  | .ok _, .ok _, .ok p, h, h' => ⟨p, h, h'⟩
  | .error _, .error _, .error _, h, h' => h.trans h'.symm
  | .ok _, _, .error _, h, _ => nomatch h
  | .error _, _, .ok _, h, _ => nomatch h
  | _, .ok _, .error _, _, h => nomatch h
  | _, .error _, .ok _, _, h => nomatch h

theorem error_iff {R : α → β → Prop} {x : Except ε α} {y : Except ε β} (h : Agree R x y) (cause : ε) :
    y = .error cause ↔ x = .error cause := by
  cases x with
  | ok a =>
    cases y with
    | ok b => simp
    | error cause' => cases h
  | error cause' =>
    cases y with
    | ok b => cases h
    | error cause'' =>
      cases h
      rw [Except.error.injEq, Except.error.injEq]

end Agree
end Results

/-! ## Profiles -/

/-- Appended values, but for how raw text is cut: the raw text in front of all other values, and each of them with the
raw text behind it. -/
structure Profile where
  front : String := ""
  values : List (Term × String) := []
deriving Repr, DecidableEq

namespace Profile

def withText (text : String) (p : Profile) : Profile := { p with front := text ++ p.front }

def withValue (value : Term) (p : Profile) : Profile := ⟨"", (value, p.front) :: p.values⟩

/-- One more value in front, the one of the given node.  Raw text has to be a literal. -/
def add? : Node → Term → Profile → Option Profile
  | .rawText _, .literal text, p => some (p.withText text)
  | .rawText _, _, _ => none
  | _, value, p => some (p.withValue value)

end Profile

/-- The profile of the values of a body, one for each node. -/
def profile? : List Node → List Term → Option Profile
  | [], [] => some {}
  | node :: body, value :: values => (profile? body values).bind (Profile.add? node value)
  | _, _ => none

variable {c : Context} {function : String}

def bodyProfile (c : Context) (function : String) (before : Nat) : List Node → Except EmitError Profile
  | [] => .ok {}
  | .rawText text :: rest => do
    let p ← bodyProfile c function before rest
    pure (p.withText text)
  | node :: rest => do
    let value ← valueAfter c function before node
    let p ← bodyProfile c function (before + (uses [node]).length) rest
    pure (p.withValue value.term)

theorem bodyProfile_rawText (before : Nat) (text : String) (rest : List Node) :
    bodyProfile c function before (.rawText text :: rest) = (do
      let p ← bodyProfile c function before rest
      pure (p.withText text)) := rfl

theorem bodyProfile_cons {node : Node} (h : node.isRawText = false) (before : Nat) (rest : List Node) :
    bodyProfile c function before (node :: rest) = (do
      let value ← valueAfter c function before node
      let p ← bodyProfile c function (before + (uses [node]).length) rest
      pure (p.withValue value.term)) := by
  cases node with
  | rawText text => cases h
  | _ => rfl

/-- **The profile of a body, and its first error, do not depend on how raw text is cut.** -/
theorem uncut_bodyProfile (c : Context) (function : String) :
    Uncut fun body before => bodyProfile c function before body where
  empty body := by
    funext before
    rw [bodyProfile_rawText]
    cases bodyProfile c function before body with
    | error cause => rfl
    | ok p => exact congrArg Except.ok (congrArg (Profile.mk · p.values) String.empty_append)
  join s t body := by
    funext before
    rw [bodyProfile_rawText, bodyProfile_rawText, bodyProfile_rawText]
    cases bodyProfile c function before body with
    | error cause => rfl
    | ok p => exact congrArg Except.ok (congrArg (Profile.mk · p.values) String.append_assoc.symm)
  cons node body body' h := by
    funext before
    cases hn : node.isRawText with
    | true =>
      obtain ⟨text, rfl⟩ := node.eq_rawText_of_isRawText hn
      rw [bodyProfile_rawText, bodyProfile_rawText, congrFun h before]
    | false =>
      rw [bodyProfile_cons hn, bodyProfile_cons hn]
      simp only [congrFun h]

theorem agree_bodyProfile (c : Context) (function : String) : ∀ (body : List Node) (before : Nat),
    Agree (fun values p => profile? body (values.map Expression.term) = some p) (valuesAfter c function before body)
      (bodyProfile c function before body)
  | [], _ => rfl
  | node :: rest, before => by
    have ih := agree_bodyProfile c function rest (before + (uses [node]).length)
    rw [valuesAfter]
    cases hn : node.isRawText with
    | true =>
      obtain ⟨text, rfl⟩ := node.eq_rawText_of_isRawText hn
      show Agree _ (valuesAfter c function (before + (uses [Node.rawText text]).length) rest >>= fun others =>
        pure (.literal text :: others)) _
      refine Agree.bind (fun values p h => ?_) ih
      show profile? _ (_ :: values.map Expression.term) = _
      rw [profile?, h]
      rfl
    | false =>
      rw [bodyProfile_cons hn]
      refine Agree.bind (fun value value' hv => ?_) (Agree.refl (fun _ => rfl) (valueAfter c function before node))
      subst hv
      refine Agree.bind (fun values p h => ?_) ih
      show profile? _ (_ :: values.map Expression.term) = _
      rw [profile?, h]
      cases node with
      | rawText text => cases hn
      | _ => rfl

/-! ## Simplified files -/

theorem uncut_uses : Uncut uses where
  empty _ := rfl
  join _ _ _ := rfl
  cons node body body' h := by rw [uses_cons, uses_cons node body', h]

def FunctionsAlike (body : List Node) (f f' : Function) : Prop :=
  f'.name = f.name ∧ f'.definitions = f.definitions ∧ ∃ p, profile? body (f.appended.map Expression.term) = some p ∧
    profile? (mergeText body) (f'.appended.map Expression.term) = some p

theorem agree_functionAfter (package : String) (before : Nat) (t : Template) :
    Agree (FunctionsAlike t.body) (functionAfter c package before t)
      (functionAfter c package before { t with body := mergeText t.body }) := by
  unfold functionAfter
  simp only [uncut_uses.apply_mergeText]
  refine Agree.bind (fun ds ds' hd => ?_) (Agree.refl (fun _ => rfl) _)
  subst hd
  have hgiven := agree_bodyProfile c (functionName package t.name) t.body before
  have hmerged := agree_bodyProfile c (functionName package t.name) (mergeText t.body) before
  rw [congrFun ((uncut_bodyProfile c _).apply_mergeText t.body) before] at hmerged
  refine Agree.bind (fun values values' h => ?_) (hgiven.through hmerged)
  show FunctionsAlike t.body ⟨_, ds, values⟩ ⟨_, ds, values'⟩
  exact ⟨rfl, rfl, h⟩

theorem agree_functionsAfter (package : String) : ∀ (ts : List Template) (before : Nat),
    Agree (fun fs fs' => ∃ pairs : List (Function × Function), fs = pairs.map Prod.fst ∧ fs' = pairs.map Prod.snd ∧
        List.Forall₂ (fun t pair => FunctionsAlike t.body pair.1 pair.2) ts pairs)
      (functionsAfter c package before ts)
      (functionsAfter c package before (ts.map fun t => { t with body := mergeText t.body }))
  | [], _ => ⟨[], rfl, rfl, .nil⟩
  | t :: ts, before => by
    rw [List.map_cons, functionsAfter, functionsAfter, uncut_uses.apply_mergeText]
    refine Agree.bind (fun f f' hf => ?_) (agree_functionAfter package before t)
    refine Agree.bind (fun fs fs' hfs => ?_) (agree_functionsAfter package ts (before + (uses t.body).length))
    obtain ⟨pairs, rfl, rfl, hpairs⟩ := hfs
    exact ⟨(f, f') :: pairs, rfl, rfl, .cons hf hpairs⟩

theorem agree_compile (f : TemplateFile) :
    Agree (fun p p' => p'.origin = p.origin ∧ p'.takesInjected = p.takesInjected ∧
        ∃ pairs : List (Function × Function), p.functions = pairs.map Prod.fst ∧ p'.functions = pairs.map Prod.snd ∧
          List.Forall₂ (fun t pair => FunctionsAlike t.body pair.1 pair.2) f.templates pairs)
      (compile c f) (compile c (simplify f)) := by
  rw [compile_eq, compile_eq]
  refine Agree.map (fun functions functions' h => ?_) (agree_functionsAfter f.package f.templates 0)
  exact And.intro rfl ⟨rfl, h⟩

/-- **Two routines for one body, the second of them for the merged body**: the headers are the same, the same definitions
come first, and then each appends its values to the same profile. -/
def RoutinesAlike (body : List Node) (r r' : Routine) : Prop :=
  r'.name = r.name ∧ r'.parameters = r.parameters ∧
    ∃ (definitions : List (String × String)) (values values' : List Term) (p : Profile),
      r.statements = (definitions.map fun d => .assign d.1 d.2) ++ values.map (.append "output") ++ [.result "output"] ∧
      r'.statements = (definitions.map fun d => .assign d.1 d.2) ++ values'.map (.append "output") ++ [.result "output"] ∧
      profile? body values = some p ∧ profile? (mergeText body) values' = some p

/-- **Two texts for one file, the second of them for the simplified file.** -/
def TextsAlike (f : TemplateFile) (text text' : String) : Prop :=
  ∃ pairs : List (Routine × Routine), routines? f.path text = some (pairs.map Prod.fst) ∧
    routines? f.path text' = some (pairs.map Prod.snd) ∧
    List.Forall₂ (fun t pair => RoutinesAlike t.body pair.1 pair.2) f.templates pairs

theorem routinesAlike {body : List Node} {f f' : Function} (takesInjected : Bool) (h : FunctionsAlike body f f') :
    RoutinesAlike body (f.routine takesInjected) (f'.routine takesInjected) := by
  obtain ⟨hname, hd, p, hp, hp'⟩ := h
  refine ⟨hname, rfl, ("output", "") :: f.definitions.map fun d => (d.target.name, d.text), _, _, p, ?_, ?_, hp, hp'⟩
  · rw [Function.routine, List.map_cons, List.map_map, List.map_map]
    rfl
  · rw [Function.routine, List.map_cons, List.map_map, List.map_map, hd]
    rfl

theorem textsAlike {f : TemplateFile} {text text' : String} (h : emit c f = .ok text)
    (h' : emit c (simplify f) = .ok text') : TextsAlike f text text' := by
  obtain ⟨p, hp, rfl⟩ := emit_eq_ok h
  obtain ⟨p', hp', rfl⟩ := emit_eq_ok h'
  have hagree := agree_compile (c := c) f
  rw [hp, hp'] at hagree
  obtain ⟨-, -, pairs, hfst, hsnd, hpairs⟩ := hagree
  refine ⟨pairs.map fun pair => (pair.1.routine c.options.usesInjectedData, pair.2.routine c.options.usesInjectedData),
    ?_, ?_, ?_⟩
  · rw [routines?_of_compile hp, hfst, List.map_map, List.map_map]
    rfl
  · have hread := routines?_of_compile hp'
    rw [hsnd] at hread
    rw [List.map_map]
    rw [List.map_map] at hread
    exact hread
  · rw [List.forall₂_map_right_iff]
    exact hpairs.imp fun t pair => routinesAlike c.options.usesInjectedData

/-! ## Folded files -/

theorem valueAfter_foldUnder (before : Nat) (node : Node) :
    valueAfter c function before (node.foldUnder c.direction) = valueAfter c function before node := by
  cases node with
  | bidi ltr rtl =>
    obtain ⟨options, direction, bundle⟩ := c
    cases direction <;> rfl
  | _ => rfl

theorem use?_foldUnder (direction : EffectiveDirection) (node : Node) : use? (node.foldUnder direction) = use? node := by
  cases direction <;> cases node <;> rfl

theorem uses_foldUnder (direction : EffectiveDirection) (body : List Node) :
    uses (body.map (Node.foldUnder direction)) = uses body := by
  unfold uses
  rw [List.filterMap_map]
  exact congrArg (List.filterMap · body) (funext (use?_foldUnder direction))

theorem valuesAfter_foldUnder : ∀ (body : List Node) (before : Nat),
    valuesAfter c function before (body.map (Node.foldUnder c.direction)) = valuesAfter c function before body
  | [], _ => rfl
  | node :: rest, before => by
    have hu := uses_foldUnder c.direction [node]
    rw [List.map_cons, List.map_nil] at hu
    rw [List.map_cons, valuesAfter, valuesAfter, valueAfter_foldUnder, hu]
    simp only [valuesAfter_foldUnder rest]

theorem functionsAfter_foldUnder (package : String) : ∀ (ts : List Template) (before : Nat),
    functionsAfter c package before (ts.map fun t => { t with body := t.body.map (Node.foldUnder c.direction) }) =
      functionsAfter c package before ts
  | [], _ => rfl
  | t :: ts, before => by
    rw [List.map_cons, functionsAfter, functionsAfter, functionAfter, functionAfter]
    simp only [uses_foldUnder, valuesAfter_foldUnder, functionsAfter_foldUnder package ts]

theorem compile_foldDirection (c : Context) (f : TemplateFile) :
    compile c (foldDirection c.direction f) = compile c f := by
  rw [foldDirection_eq, TemplateFile.mapNodes, TemplateFile.mapBodies, compile_eq, compile_eq]
  simp only [functionsAfter_foldUnder]

/-- **Emission does not see the passes before it.**  A folded file gives the same text, or the same error.  A simplified
file gives an error exactly where the file does, and the same one; else the texts are alike but for how raw text is
cut. -/
theorem emit_transparent (c : Context) (f : TemplateFile) :
    emit c (foldDirection c.direction f) = emit c f ∧
    (∀ cause, emit c (simplify f) = .error cause ↔ emit c f = .error cause) ∧
    (∀ text text', emit c f = .ok text → emit c (simplify f) = .ok text' → TextsAlike f text text') := by
  refine ⟨?_, fun cause => ?_, fun text text' h h' => textsAlike h h'⟩
  · rw [emit, emit, compile_foldDirection]
  · have hemit : Agree (fun _ _ => True) (emit c f) (emit c (simplify f)) :=
      Agree.map (fun _ _ _ => trivial) (agree_compile (c := c) f)
    exact hemit.error_iff cause

theorem emit_transparent_welcome : ∃ c f text text', f = foldDirection c.direction (TemplateFile.welcome.mapNodes
    (Node.insertText none)) ∧ emit c f = .ok text ∧ emit c (simplify f) = .ok text' ∧ TextsAlike f text text' := by
  let c : Context := ⟨{ generatesMessageDefs := true }, .fixed .rtl, none⟩
  let f := foldDirection c.direction (TemplateFile.welcome.mapNodes (Node.insertText none))
  obtain ⟨text, h⟩ : ∃ text, emit c f = .ok text := ⟨_, rfl⟩
  obtain ⟨text', h'⟩ : ∃ text', emit c (simplify f) = .ok text' := ⟨_, rfl⟩
  exact ⟨c, f, text, text', rfl, h, h', (emit_transparent c f).2.2 text text' h h'⟩

end Php
end Stencil
