import Stencil.Php.Render
import Stencil.Proofs.Php.Name
import Stencil.Proofs.Result
/-!
# Counting — a template compiled by the number of messages before it

A compilation hands the definitions of numbered messages from one walk over a template to the next, and looks external
ones up by the names of their variables.  Here both are told without that: a numbered message has the number of messages
before it in the file, and an external one is known by its id.  The two come to the same (`compile_eq`), as different
variables have different names and the second walk finds a definition for every message (`bodyValues_eq`).
-/
namespace Stencil
namespace Php

/-! ## Messages -/

/-- How the texts of messages get into the output. -/
inductive MessageStyle
  /-- As literals where they are used. -/
  | inline
  /-- Through a variable for each use, numbered through the file. -/
  | unnamed
  /-- Through a variable for each id, shared by all uses in a template. -/
  | external
deriving Repr, DecidableEq

def messageStyle (o : Options) : MessageStyle :=
  if o.messagesAreExternalEffective then .external
  else if o.generatesMessageDefs then .unnamed
  else .inline

/-- The use of an inserted message: its id and its text. -/
structure Use where
  id : String
  text : String
deriving Repr, DecidableEq

/-- The message that a node outputs. -/
def use? : Node → Option Use
  | .messageText id text => some ⟨id, text⟩
  | _ => none

/-- The inserted messages of a body in order. -/
def uses (body : List Node) : List Use := body.filterMap use?

theorem uses_cons (node : Node) (rest : List Node) : uses (node :: rest) = uses [node] ++ uses rest :=
  List.filterMap_append (l := [node])

/-! ## Compilation by number and by id -/

/-- Definitions of numbered messages; `before` messages of the file stand in front of them. -/
def unnamedDefinitions (before : Nat) : List Use → List Definition
  | [] => []
  | u :: us => ⟨.unnamed (before + 1), u.text⟩ :: unnamedDefinitions (before + 1) us

/-- Definitions of external messages, one for each id that `defined` does not have yet. -/
def externalDefinitions (defined : List Use) : List Use → Except EmitError (List Definition)
  | [] => .ok []
  | u :: us =>
    match defined.find? fun d => d.id == u.id with
    | some d => if d.text = u.text then externalDefinitions defined us else .error (.conflictingMessageText u.id)
    | none => (externalDefinitions (u :: defined) us).map (⟨.external u.id, u.text⟩ :: ·)

def definitionsAfter (style : MessageStyle) (before : Nat) (us : List Use) : Except EmitError (List Definition) :=
  match style with
  | .inline => .ok []
  | .unnamed => .ok (unnamedDefinitions before us)
  | .external => externalDefinitions [] us

/-- The value of an inserted message, after `before` messages of the file. -/
def messageAfter (style : MessageStyle) (before : Nat) (id text : String) : Expression :=
  match style with
  | .inline => .literal text
  | .unnamed => .use (.unnamed (before + 1))
  | .external => .use (.external id)

/-- The value of a node of the named function, after `before` messages of the file. -/
def valueAfter (c : Context) (function : String) (before : Nat) : Node → Except EmitError Expression
  | .rawText text => .ok (.literal text)
  | .print expression injected => printed c.options function expression injected
  | .message m => .error (.uninsertedMessage m.id)
  | .messageText id text => .ok (messageAfter (messageStyle c.options) before id text)
  | .bidi ltr rtl => .ok (bidiValue c.direction ltr rtl)

def valuesAfter (c : Context) (function : String) (before : Nat) : List Node → Except EmitError (List Expression)
  | [] => .ok []
  | node :: rest => do
    let value ← valueAfter c function before node
    let values ← valuesAfter c function (before + (uses [node]).length) rest
    pure (value :: values)

def functionAfter (c : Context) (package : String) (before : Nat) (t : Template) : Except EmitError Function := do
  let name := functionName package t.name
  let defined ← definitionsAfter (messageStyle c.options) before (uses t.body)
  let appended ← valuesAfter c name before t.body
  pure ⟨name, defined, appended⟩

def functionsAfter (c : Context) (package : String) (before : Nat) : List Template → Except EmitError (List Function)
  | [] => .ok []
  | t :: ts => do
    let function ← functionAfter c package before t
    let functions ← functionsAfter c package (before + (uses t.body).length) ts
    pure (function :: functions)

/-- The numbers that are taken after a template, if messages are numbered; else none are. -/
def numberedAfter (o : Options) (numbered : Nat) (us : List Use) : Nat :=
  if messageStyle o = .unnamed then numbered + us.length else numbered

/-! ## The walk of the definitions -/

section Definitions

variable {o : Options} {defined : List Definition} {seen : List Use}

theorem defineMessages_of_unnamed (h : o.messagesAreExternalEffective = false) :
    ∀ (body : List Node) (defined : List Definition) (numbered : Nat), defineMessages o defined numbered body =
      .ok (defined ++ unnamedDefinitions numbered (uses body), numbered + (uses body).length)
  | [], defined, numbered => by
    rw [defineMessages, uses, List.filterMap_nil, unnamedDefinitions, List.append_nil]
    rfl
  | node :: rest, defined, numbered => by
    have ih := defineMessages_of_unnamed h rest
    cases node with
    | messageText id text =>
      have huses : uses (.messageText id text :: rest) = ⟨id, text⟩ :: uses rest := rfl
      simp only [defineMessages, messageVariable, sharedDefinition?, h, Bool.false_eq_true, if_false]
      rw [ih, huses, unnamedDefinitions, List.length_cons, List.append_assoc, Nat.add_right_comm, Nat.add_assoc]
      rfl
    | _ => exact ih defined numbered

/-- The definitions made so far have the texts of the messages seen so far, found by name or by id. -/
def TextsOf (defined : List Definition) (seen : List Use) : Prop :=
  ∀ id, (defined.find? fun d => d.target.render == (Variable.external id).render).map Definition.text =
    (seen.find? fun u => u.id == id).map Use.text

theorem TextsOf.define (h : TextsOf defined seen) {u : Use} (hnew : seen.find? (fun d => d.id == u.id) = none) :
    TextsOf (defined ++ [⟨.external u.id, u.text⟩]) (u :: seen) := by
  intro id
  by_cases hid : u.id = id
  · subst hid
    have hnone := h u.id
    rw [hnew, Option.map_none, Option.map_eq_none_iff] at hnone
    simp [List.find?_append, hnone]
  · -- Another id has another name, so nothing is found for it that was not there.
    have hname : ((Variable.external u.id).render == (Variable.external id).render) = false :=
      beq_eq_false_iff_ne.2 fun h => hid (Variable.external.inj (Variable.render_injective h))
    have hsame := h id
    simp [List.find?_append, hname, beq_eq_false_iff_ne.2 hid, hsame]

theorem defineMessages_of_external (h : o.messagesAreExternalEffective = true) (numbered : Nat) :
    ∀ (body : List Node) {defined : List Definition} {seen : List Use}, TextsOf defined seen →
      defineMessages o defined numbered body =
        (externalDefinitions seen (uses body)).map fun ds => (defined ++ ds, numbered)
  | [], defined, _, _ => by
    rw [defineMessages, uses, List.filterMap_nil, externalDefinitions, Except.map, List.append_nil]
  | node :: rest, defined, seen, htexts => by
    cases node with
    | messageText id text =>
      have huses : uses (.messageText id text :: rest) = ⟨id, text⟩ :: uses rest := rfl
      have hid := htexts id
      simp only [defineMessages, messageVariable, sharedDefinition?, h, if_true]
      rw [huses, externalDefinitions]
      cases hseen : seen.find? (fun d => d.id == id) with
      | none =>
        rw [hseen, Option.map_none, Option.map_eq_none_iff] at hid
        rw [hid]
        have hrest := defineMessages_of_external h numbered rest (htexts.define (u := ⟨id, text⟩) hseen)
        refine hrest.trans ?_
        cases externalDefinitions (⟨id, text⟩ :: seen) (uses rest) with
        | error e => rfl
        | ok ds => simp [Except.map]
      | some u =>
        rw [hseen, Option.map_some, Option.map_eq_some_iff] at hid
        obtain ⟨d, hd, htext⟩ := hid
        rw [hd]
        simp only [htext]
        split
        · exact defineMessages_of_external h numbered rest htexts
        · rfl
    | _ => exact defineMessages_of_external h numbered rest htexts

/-- **The first walk finds the definitions of the messages by their numbers, or by their ids.**  It takes as many numbers
as there are messages, if they are numbered. -/
theorem definitions_eq (o : Options) (numbered : Nat) (body : List Node) :
    definitions o numbered body = (definitionsAfter (messageStyle o) numbered (uses body)).map fun ds =>
      (ds, numberedAfter o numbered (uses body)) := by
  unfold definitions numberedAfter messageStyle
  cases hexternal : o.messagesAreExternalEffective with
  | true =>
    have hdefs : o.generatesMessageDefs = true := by
      rw [Options.messagesAreExternalEffective, Bool.and_eq_true] at hexternal
      simp [hexternal]
    have hnone : TextsOf [] [] := fun _ => rfl
    rw [if_pos hdefs, defineMessages_of_external hexternal numbered body hnone]
    rfl
  | false =>
    cases o.generatesMessageDefs with
    | true =>
      rw [if_pos rfl, defineMessages_of_unnamed hexternal]
      rfl
    | false => rfl

end Definitions

/-! ## The walk of the values -/

section Values

variable {c : Context} {function : String}

theorem messageValue_of_ne_unnamed {o : Options} (h : messageStyle o ≠ .unnamed) (unused : List Definition)
    (before : Nat) (id text : String) :
    messageValue o unused id text = (messageAfter (messageStyle o) before id text, unused) := by
  unfold messageStyle messageValue Options.messagesAreExternalEffective at *
  cases hdefs : o.generatesMessageDefs <;> cases hexternal : o.messagesAreExternal <;> simp_all [messageAfter]

theorem messageValue_of_unnamed {o : Options} (h : messageStyle o = .unnamed) (d : Definition) (unused : List Definition)
    (id text : String) : messageValue o (d :: unused) id text = (.use d.target, unused) := by
  unfold messageStyle messageValue Options.messagesAreExternalEffective at *
  cases hdefs : o.generatesMessageDefs <;> cases hexternal : o.messagesAreExternal <;> simp_all

/-- Where messages are not numbered, no definition is taken. -/
theorem bodyValues_of_ne_unnamed (h : messageStyle c.options ≠ .unnamed) (unused : List Definition) :
    ∀ (body : List Node) (before : Nat), bodyValues c function unused body = valuesAfter c function before body
  | [], _ => rfl
  | node :: rest, before => by
    have hvalue : nodeValue c function unused node = (valueAfter c function before node).map (·, unused) := by
      cases node with
      | messageText id text => exact congrArg Except.ok (messageValue_of_ne_unnamed h unused before id text)
      | _ => rfl
    rw [bodyValues, valuesAfter, hvalue]
    cases valueAfter c function before node with
    | error e => rfl
    | ok value =>
      show (bodyValues c function unused rest >>= fun values => pure (value :: values)) = _
      rw [bodyValues_of_ne_unnamed h unused rest (before + (uses [node]).length)]
      rfl

/-- **Each numbered message finds its own definition**, so that none is put in line. -/
theorem bodyValues_of_unnamed (h : messageStyle c.options = .unnamed) : ∀ (body : List Node) (before : Nat),
    bodyValues c function (unnamedDefinitions before (uses body)) body = valuesAfter c function before body
  | [], _ => rfl
  | node :: rest, before => by
    -- What is left after a node are the definitions for the messages after it.
    have hvalue : nodeValue c function (unnamedDefinitions before (uses (node :: rest))) node =
        (valueAfter c function before node).map (·, unnamedDefinitions (before + (uses [node]).length) (uses rest)) := by
      cases node with
      | messageText id text =>
        have hmessage : messageAfter (messageStyle c.options) before id text = .use (.unnamed (before + 1)) := by
          rw [h]
          rfl
        rw [nodeValue, valueAfter, hmessage]
        exact congrArg Except.ok (messageValue_of_unnamed h _ _ id text)
      | _ => rfl
    rw [bodyValues, valuesAfter, hvalue]
    cases valueAfter c function before node with
    | error e => rfl
    | ok value =>
      show (bodyValues c function (unnamedDefinitions _ (uses rest)) rest >>= fun values => pure (value :: values)) = _
      rw [bodyValues_of_unnamed h rest]
      rfl

/-- **The second walk gives each message its value by its number or its id**, on the definitions of the first. -/
theorem bodyValues_eq {before : Nat} {body : List Node} {ds : List Definition}
    (h : definitionsAfter (messageStyle c.options) before (uses body) = .ok ds) :
    bodyValues c function ds body = valuesAfter c function before body := by
  by_cases hstyle : messageStyle c.options = .unnamed
  · rw [hstyle] at h
    cases h
    exact bodyValues_of_unnamed hstyle body before
  · exact bodyValues_of_ne_unnamed hstyle ds body before

end Values

/-! ## Files -/

variable (c : Context) (package : String)

theorem compileTemplate_eq (numbered : Nat) (t : Template) : compileTemplate c package numbered t =
    (functionAfter c package numbered t).map fun f => (f, numberedAfter c.options numbered (uses t.body)) := by
  rw [compileTemplate, functionAfter, definitions_eq]
  cases h : definitionsAfter (messageStyle c.options) numbered (uses t.body) with
  | error e => rfl
  | ok ds =>
    show (bodyValues c (functionName package t.name) ds t.body >>= fun appended => pure _) = _
    rw [bodyValues_eq h]
    cases valuesAfter c (functionName package t.name) numbered t.body <;> rfl

/-- Where messages are not numbered, it does not matter how many there were. -/
theorem functionAfter_of_ne_unnamed (h : messageStyle c.options ≠ .unnamed) (before before' : Nat) (t : Template) :
    functionAfter c package before t = functionAfter c package before' t := by
  have hdefinitions : definitionsAfter (messageStyle c.options) before (uses t.body) =
      definitionsAfter (messageStyle c.options) before' (uses t.body) := by
    cases hstyle : messageStyle c.options with
    | unnamed => exact absurd hstyle h
    | _ => rfl
  simp only [functionAfter, hdefinitions, ← bodyValues_of_ne_unnamed h [] t.body]

theorem compileTemplates_eq : ∀ (ts : List Template) {numbered before : Nat},
    (messageStyle c.options = .unnamed → numbered = before) →
      compileTemplates c package numbered ts = functionsAfter c package before ts
  | [], _, _, _ => rfl
  | t :: ts, numbered, before, hcount => by
    have hfunction : functionAfter c package numbered t = functionAfter c package before t := by
      by_cases hstyle : messageStyle c.options = .unnamed
      · rw [hcount hstyle]
      · exact functionAfter_of_ne_unnamed c package hstyle numbered before t
    have hrest : messageStyle c.options = .unnamed →
        numberedAfter c.options numbered (uses t.body) = before + (uses t.body).length := by
      intro hstyle
      rw [numberedAfter, if_pos hstyle, hcount hstyle]
    rw [compileTemplates, functionsAfter, compileTemplate_eq, hfunction]
    cases functionAfter c package before t with
    | error e => rfl
    | ok f =>
      show (compileTemplates c package _ ts >>= fun functions => pure (f :: functions)) = _
      rw [compileTemplates_eq ts hrest]
      rfl

/-- **A file compiles as it does by the numbers and ids of its messages.** -/
theorem compile_eq (f : TemplateFile) : compile c f = (functionsAfter c f.package 0 f.templates).map fun functions =>
    ⟨f.path, c.options.usesInjectedData, functions⟩ := by
  rw [compile, compileTemplates_eq c f.package f.templates fun _ => rfl]
  rfl

end Php
end Stencil
