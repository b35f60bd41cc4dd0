import Mathlib.Data.List.Nodup
import Stencil.Proofs.Php.Conflict
import Stencil.Proofs.Php.Execution
/-!
# Messages — every message is defined once and used in its place

Definitions and uses are written by two walks over a template.  Read back, they match (`emit_messages`): numbered messages
are defined in document order and each number is used at one place of the file; external messages have one definition for
an id, and all uses of the id share it; without definitions every message stands where it is used.
-/
namespace Stencil
namespace Php

/-! ## Lists -/

section Lists

variable {α β : Type}

theorem exists_take_eq {xs : List α} {i j : Nat} {x : α} (hx : xs[i]? = some x) (hij : i < j) :
    ∃ rest, xs.take j = xs.take i ++ x :: rest := by
  obtain ⟨hi, rfl⟩ := List.getElem?_eq_some_iff.1 hx
  obtain ⟨k, rfl⟩ : ∃ k, j = i + (k + 1) := ⟨j - i - 1, by omega⟩
  refine ⟨(xs.drop (i + 1)).take k, ?_⟩
  rw [List.take_add, List.drop_eq_getElem_cons hi, List.take_succ_cons]

/-- Where no key is twice, a key leads to one entry. -/
theorem filter_key_eq_singleton [DecidableEq α] {a : α} {b : β} : ∀ {entries : List (α × β)},
    (entries.map Prod.fst).Nodup → (a, b) ∈ entries → entries.filter (fun e => e.1 = a) = [(a, b)]
  | e :: entries, hnodup, hmem => by
    rw [List.map_cons, List.nodup_cons] at hnodup
    rcases List.mem_cons.1 hmem with rfl | hmem
    · have hnone : entries.filter (fun e => e.1 = a) = [] := by
        refine List.filter_eq_nil_iff.2 fun e he hea => hnodup.1 ?_
        exact List.mem_map.2 ⟨e, he, by simpa using hea⟩
      simp [hnone]
    · have hne : e.1 ≠ a := fun h => hnodup.1 (List.mem_map.2 ⟨(a, b), hmem, h.symm⟩)
      rw [List.filter_cons_of_neg (by simpa using hne), filter_key_eq_singleton hnodup.2 hmem]

theorem nodup_eraseDups [DecidableEq α] : ∀ xs : List α, xs.eraseDups.Nodup
  | [] => by simp
  | x :: xs => by
    rw [List.eraseDups_cons, List.nodup_cons]
    exact ⟨by simp [List.mem_eraseDups], nodup_eraseDups (xs.filter fun y => !y == x)⟩
termination_by xs => xs.length
decreasing_by exact Nat.lt_succ_of_le (List.length_filter_le _ _)

end Lists

/-! ## Routines -/

def Statement.assigned? : Statement → Option (String × String)
  | .assign name text => some (name, text)
  | _ => none

def Statement.appended? : Statement → Option Term
  | .append _ value => some value
  | _ => none

namespace Routine

/-- The variables that a routine sets beside its output, with their texts. -/
def definitions (r : Routine) : List (String × String) :=
  (r.statements.filterMap Statement.assigned?).filter fun d => d.1 ≠ "output"

def appended (r : Routine) : List Term := r.statements.filterMap Statement.appended?

/-- The output starts empty, and all definitions come before what is appended to it. -/
def Ordered (r : Routine) : Prop :=
  r.statements = .assign "output" "" :: (r.definitions.map fun d => .assign d.1 d.2) ++
    (r.appended.map fun value => .append "output" value) ++ [.result "output"]

end Routine

section Routines

variable (takesInjected : Bool) (f : Function)

theorem definitions_routine :
    (f.routine takesInjected).definitions = f.definitions.map fun d => (d.target.name, d.text) := by
  have hassigned : (f.routine takesInjected).statements.filterMap Statement.assigned? =
      ("output", "") :: f.definitions.map fun d => (d.target.name, d.text) := by
    simp [Function.routine, List.filterMap_append, List.filterMap_map, Function.comp_def, Statement.assigned?]
  rw [Routine.definitions, hassigned, List.filter_cons_of_neg (by simp), List.filter_eq_self.2]
  intro d hd
  obtain ⟨definition, -, rfl⟩ := List.mem_map.1 hd
  simpa using definition.target.name_ne_output.symm

theorem appended_routine : (f.routine takesInjected).appended = f.appended.map Expression.term := by
  simp [Routine.appended, Function.routine, List.filterMap_cons, List.filterMap_append, List.filterMap_map,
    Function.comp_def, Statement.appended?]

theorem ordered_routine : (f.routine takesInjected).Ordered := by
  rw [Routine.Ordered, definitions_routine, appended_routine, List.map_map, List.map_map]
  rfl

end Routines

/-! ## Places -/

/-- The node at a place of a file: in which template, and where in its body. -/
def nodeAt? (ts : List Template) (i j : Nat) : Option Node := ts[i]?.bind fun t => t.body[j]?

/-- What is appended at a place. -/
def valueAt? (rs : List Routine) (i j : Nat) : Option Term := rs[i]?.bind fun r => r.appended[j]?

/-- The nodes before a place in document order. -/
def nodesBefore (ts : List Template) (i j : Nat) : List Node :=
  (ts.take i).flatMap Template.body ++ (ts[i]?.elim [] Template.body).take j

/-- The number, from one, of the message at a place. -/
def messageNumber (ts : List Template) (i j : Nat) : Nat := (uses (nodesBefore ts i j)).length + 1

@[simp] theorem uses_nil : uses [] = [] := rfl

theorem uses_append (body rest : List Node) : uses (body ++ rest) = uses body ++ uses rest := List.filterMap_append

theorem nodeAt?_eq_some_iff {ts : List Template} {i j : Nat} {node : Node} :
    nodeAt? ts i j = some node ↔ ∃ t, ts[i]? = some t ∧ t.body[j]? = some node := Option.bind_eq_some_iff

theorem messageNumber_eq {ts : List Template} {i : Nat} {t : Template} (ht : ts[i]? = some t) (j : Nat) :
    messageNumber ts i j = (uses ((ts.take i).flatMap Template.body)).length + (uses (t.body.take j)).length + 1 := by
  simp only [messageNumber, nodesBefore, ht, Option.elim_some, uses_append, List.length_append]

/-- **Messages further on have higher numbers.** -/
theorem messageNumber_lt {ts : List Template} {i j i' j' : Nat} {id text : String}
    (h : nodeAt? ts i j = some (.messageText id text)) (hlt : i < i' ∨ i = i' ∧ j < j') :
    messageNumber ts i j < messageNumber ts i' j' := by
  obtain ⟨t, ht, hnode⟩ := nodeAt?_eq_some_iff.1 h
  have hone : (uses [.messageText id text]).length = 1 := rfl
  rcases hlt with hlt | ⟨rfl, hlt⟩
  · obtain ⟨rest, hrest⟩ := exists_take_eq ht hlt
    obtain ⟨after, hbody⟩ := exists_take_eq hnode (List.getElem?_eq_some_iff.1 hnode).1
    rw [List.take_length] at hbody
    have hcount : (uses t.body).length = (uses (t.body.take j)).length + 1 + (uses after).length := by
      conv => lhs; rw [hbody, uses_append, uses_cons]
      simp only [List.length_append, hone]
      omega
    rw [messageNumber_eq ht, messageNumber, nodesBefore, hrest, List.flatMap_append, List.flatMap_cons]
    simp only [uses_append, List.length_append, hcount]
    omega
  · obtain ⟨rest, hrest⟩ := exists_take_eq hnode hlt
    rw [messageNumber_eq ht, messageNumber_eq ht, hrest, uses_append, uses_cons]
    simp only [List.length_append, hone]
    omega

/-- **No two messages of a file have one number.** -/
theorem messageNumber_injective {ts : List Template} {i j i' j' : Nat} {id text id' text' : String}
    (h : nodeAt? ts i j = some (.messageText id text)) (h' : nodeAt? ts i' j' = some (.messageText id' text'))
    (heq : messageNumber ts i j = messageNumber ts i' j') : i = i' ∧ j = j' := by
  by_cases hlt : i < i' ∨ i = i' ∧ j < j'
  · have := messageNumber_lt h hlt
    omega
  · by_cases hgt : i' < i ∨ i' = i ∧ j' < j
    · have := messageNumber_lt h' hgt
      omega
    · omega

/-! ## What a compilation puts where -/

variable {c : Context} {package : String}

theorem getElem?_valuesAfter {function : String} {value : Expression} : ∀ {body : List Node} {before : Nat}
    {values : List Expression}, valuesAfter c function before body = .ok values → ∀ j : Nat,
      values[j]? = some value ↔ ∃ node, body[j]? = some node ∧
        valueAfter c function (before + (uses (body.take j)).length) node = .ok value
  | [], _, values, h, j => by
    cases h
    simp
  | node :: rest, before, values, h, j => by
    obtain ⟨first, others, hfirst, hothers, rfl⟩ := valuesAfter_cons_eq_ok h
    cases j with
    | zero => simp [hfirst]
    | succ j =>
      have huses : before + (uses ((node :: rest).take (j + 1))).length =
          before + (uses [node]).length + (uses (rest.take j)).length := by
        rw [List.take_succ_cons, uses_cons, List.length_append]
        omega
      rw [List.getElem?_cons_succ, List.getElem?_cons_succ, huses]
      exact getElem?_valuesAfter hothers j

/-- The value of a node of a body is appended in its place. -/
theorem getElem?_appended {function : String} {body : List Node} {before : Nat} {f : Function}
    (h : valuesAfter c function before body = .ok f.appended) (takesInjected : Bool) {j : Nat} {node : Node}
    {value : Expression} (hnode : body[j]? = some node)
    (hvalue : valueAfter c function (before + (uses (body.take j)).length) node = .ok value) :
    (f.routine takesInjected).appended[j]? = some value.term := by
  rw [appended_routine, List.getElem?_map, (getElem?_valuesAfter h j).2 ⟨node, hnode, hvalue⟩, Option.map_some]

theorem length_valuesAfter {function : String} : ∀ {body : List Node} {before : Nat} {values : List Expression},
    valuesAfter c function before body = .ok values → values.length = body.length
  | [], _, values, h => by
    cases h
    rfl
  | node :: rest, before, values, h => by
    obtain ⟨first, others, -, hothers, rfl⟩ := valuesAfter_cons_eq_ok h
    rw [List.length_cons, List.length_cons, length_valuesAfter hothers]

theorem functionsAfter_cons_eq_ok {before : Nat} {t : Template} {ts : List Template} {functions : List Function}
    (h : functionsAfter c package before (t :: ts) = .ok functions) :
    ∃ function others, functionAfter c package before t = .ok function ∧
      functionsAfter c package (before + (uses t.body).length) ts = .ok others ∧ functions = function :: others := by
  rw [functionsAfter] at h
  obtain ⟨function, hf, h⟩ := bind_eq_ok h
  obtain ⟨others, ho, h⟩ := bind_eq_ok h
  exact ⟨function, others, hf, ho, (pure_eq_ok h).symm⟩

theorem getElem?_functionsAfter {function : Function} : ∀ {ts : List Template} {before : Nat}
    {functions : List Function}, functionsAfter c package before ts = .ok functions → ∀ i : Nat,
      functions[i]? = some function ↔ ∃ t, ts[i]? = some t ∧
        functionAfter c package (before + (uses ((ts.take i).flatMap Template.body)).length) t = .ok function
  | [], _, functions, h, i => by
    cases h
    simp
  | t :: ts, before, functions, h, i => by
    obtain ⟨first, others, hfirst, hothers, rfl⟩ := functionsAfter_cons_eq_ok h
    cases i with
    | zero => simp [hfirst]
    | succ i =>
      have huses : before + (uses (((t :: ts).take (i + 1)).flatMap Template.body)).length =
          before + (uses t.body).length + (uses ((ts.take i).flatMap Template.body)).length := by
        rw [List.take_succ_cons, List.flatMap_cons, uses_append, List.length_append]
        omega
      rw [List.getElem?_cons_succ, List.getElem?_cons_succ, huses]
      exact getElem?_functionsAfter hothers i

/-- A template of a file that is compiled has its function, in the same place. -/
theorem exists_function {ts : List Template} {before : Nat} {functions : List Function}
    (h : functionsAfter c package before ts = .ok functions) {i : Nat} {t : Template} (ht : ts[i]? = some t) :
    ∃ function, functions[i]? = some function ∧ functionAfter c package
      (before + (uses ((ts.take i).flatMap Template.body)).length) t = .ok function := by
  have hi : i < functions.length := by
    rw [← (functionsAfter_eq_ok h).length_eq]
    exact (List.getElem?_eq_some_iff.1 ht).1
  obtain ⟨function, hfunction⟩ : ∃ function, functions[i]? = some function := ⟨_, List.getElem?_eq_getElem hi⟩
  obtain ⟨t', ht', hcompile⟩ := (getElem?_functionsAfter h i).1 hfunction
  obtain rfl := Option.some.inj (ht.symm.trans ht')
  exact ⟨function, hfunction, hcompile⟩

/-- **What is appended at a place is the value of the node there**, after the messages before it. -/
theorem valueAt?_eq_some_iff {ts : List Template} {functions : List Function}
    (h : functionsAfter c package 0 ts = .ok functions) (takesInjected : Bool) {i j : Nat} {value : Term} :
    valueAt? (functions.map (Function.routine takesInjected)) i j = some value ↔
      ∃ t node e, ts[i]? = some t ∧ t.body[j]? = some node ∧
        valueAfter c (functionName package t.name) (uses (nodesBefore ts i j)).length node = .ok e ∧ e.term = value := by
  have hbefore : ∀ t, ts[i]? = some t → (uses (nodesBefore ts i j)).length =
      0 + (uses ((ts.take i).flatMap Template.body)).length + (uses (t.body.take j)).length := by
    intro t ht
    simp only [nodesBefore, ht, Option.elim_some, uses_append, List.length_append]
    omega
  simp only [valueAt?, Option.bind_eq_some_iff, List.getElem?_map, Option.map_eq_some_iff]
  constructor
  · rintro ⟨_, ⟨function, hfunction, rfl⟩, hvalue⟩
    obtain ⟨t, ht, hcompile⟩ := (getElem?_functionsAfter h i).1 hfunction
    obtain ⟨-, -, hbody⟩ := functionAfter_eq_ok hcompile
    rw [appended_routine, List.getElem?_map] at hvalue
    obtain ⟨e, he, rfl⟩ := Option.map_eq_some_iff.1 hvalue
    obtain ⟨node, hnode, hvalue⟩ := (getElem?_valuesAfter hbody j).1 he
    exact ⟨t, node, e, ht, hnode, by rw [hbefore t ht, hvalue], rfl⟩
  · rintro ⟨t, node, e, ht, hnode, hvalue, rfl⟩
    obtain ⟨function, hfunction, hcompile⟩ := exists_function h ht
    obtain ⟨-, -, hbody⟩ := functionAfter_eq_ok hcompile
    rw [hbefore t ht] at hvalue
    exact ⟨_, ⟨function, hfunction, rfl⟩, getElem?_appended hbody takesInjected hnode hvalue⟩

/-! ## Numbered messages -/

/-- **The messages of a file, each under its number.**  Their definitions are all there is, in document order; each is in
the function of its template, and its variable is appended at its own place and nowhere else. -/
structure Numbered (ts : List Template) (rs : List Routine) : Prop where
  inOrder : rs.flatMap Routine.definitions =
    ((uses (ts.flatMap Template.body)).zipIdx 1).map fun u => ((Variable.unnamed u.2).name, u.1.text)
  definedOnce : ∀ i j id text, nodeAt? ts i j = some (.messageText id text) →
    (rs.flatMap Routine.definitions).filter (fun d => d.1 = (Variable.unnamed (messageNumber ts i j)).name) =
        [((Variable.unnamed (messageNumber ts i j)).name, text)] ∧
      ∃ r, rs[i]? = some r ∧ ((Variable.unnamed (messageNumber ts i j)).name, text) ∈ r.definitions
  usedOnce : ∀ i j id text, nodeAt? ts i j = some (.messageText id text) → ∀ i' j',
    valueAt? rs i' j' = some (.var (Variable.unnamed (messageNumber ts i j)).name) ↔ i' = i ∧ j' = j

theorem messageStyle_eq_unnamed {o : Options} (hdefs : o.generatesMessageDefs = true)
    (hexternal : o.messagesAreExternal = false) : messageStyle o = .unnamed := by
  simp [messageStyle, Options.messagesAreExternalEffective, hdefs, hexternal]

theorem unnamedDefinitions_eq : ∀ (us : List Use) (before : Nat),
    unnamedDefinitions before us = (us.zipIdx (before + 1)).map fun u => ⟨.unnamed u.2, u.1.text⟩
  | [], _ => rfl
  | u :: us, before => by rw [unnamedDefinitions, unnamedDefinitions_eq us, List.zipIdx_cons, List.map_cons]

theorem unnamedDefinitions_append (us vs : List Use) (before : Nat) :
    unnamedDefinitions before (us ++ vs) = unnamedDefinitions before us ++ unnamedDefinitions (before + us.length) vs := by
  have hnext : before + 1 + us.length = before + us.length + 1 := by omega
  rw [unnamedDefinitions_eq, unnamedDefinitions_eq, unnamedDefinitions_eq, List.zipIdx_append, List.map_append, hnext]

theorem definitions_of_unnamed (hstyle : messageStyle c.options = .unnamed) {before : Nat} {t : Template} {f : Function}
    (h : functionAfter c package before t = .ok f) : f.definitions = unnamedDefinitions before (uses t.body) := by
  obtain ⟨-, hd, -⟩ := functionAfter_eq_ok h
  rw [hstyle] at hd
  exact (Except.ok.inj hd).symm

theorem flatMap_definitions_of_unnamed (hstyle : messageStyle c.options = .unnamed) : ∀ {ts : List Template} {before : Nat}
    {functions : List Function}, functionsAfter c package before ts = .ok functions →
      functions.flatMap Function.definitions = unnamedDefinitions before (uses (ts.flatMap Template.body))
  | [], _, functions, h => by
    cases h
    rfl
  | t :: ts, before, functions, h => by
    obtain ⟨first, others, hfirst, hothers, rfl⟩ := functionsAfter_cons_eq_ok h
    rw [List.flatMap_cons, List.flatMap_cons, uses_append, unnamedDefinitions_append,
      definitions_of_unnamed hstyle hfirst, flatMap_definitions_of_unnamed hstyle hothers]

/-- In a place with a message its number is used, and in no other place is a variable. -/
theorem valueAfter_eq_use_iff (hstyle : messageStyle c.options = .unnamed) {function : String} {before number : Nat}
    {node : Node} : valueAfter c function before node = .ok (.use (.unnamed number)) ↔
      number = before + 1 ∧ ∃ id text, node = .messageText id text := by
  cases node with
  | rawText text => simp [valueAfter]
  | print expression injected =>
    have hprinted : valueAfter c function before (.print expression injected) ≠ .ok (.use (.unnamed number)) := by
      intro h
      obtain ⟨-, hvalue⟩ := printed_eq_ok h
      cases hvalue
    simp [hprinted]
  | message m => simp [valueAfter]
  | messageText id text => simp [valueAfter, hstyle, messageAfter, eq_comm]
  | bidi ltr rtl =>
    have hbidi : bidiValue c.direction ltr rtl ≠ .use (.unnamed number) := by
      cases c.direction <;> simp [bidiValue]
    simp [valueAfter, hbidi]

theorem numbered_of_compile (hstyle : messageStyle c.options = .unnamed) {ts : List Template} {functions : List Function}
    (h : functionsAfter c package 0 ts = .ok functions) (takesInjected : Bool) :
    Numbered ts (functions.map (Function.routine takesInjected)) := by
  have hinOrder : (functions.map (Function.routine takesInjected)).flatMap Routine.definitions =
      ((uses (ts.flatMap Template.body)).zipIdx 1).map fun u => ((Variable.unnamed u.2).name, u.1.text) := by
    have hall := congrArg (List.map fun d : Definition => (d.target.name, d.text))
      (flatMap_definitions_of_unnamed hstyle h)
    rw [List.map_flatMap, unnamedDefinitions_eq, List.map_map] at hall
    simp only [List.flatMap_map, definitions_routine]
    exact hall
  have hnodup : (((functions.map (Function.routine takesInjected)).flatMap Routine.definitions).map Prod.fst).Nodup := by
    have hnumbers : ((uses (ts.flatMap Template.body)).zipIdx 1).map Prod.snd =
        List.range' 1 (uses (ts.flatMap Template.body)).length := List.zipIdx_map_snd 1 _
    rw [hinOrder, List.map_map]
    have hsplit : (Prod.fst ∘ fun u : Use × Nat => ((Variable.unnamed u.2).name, u.1.text)) =
        (fun number => (Variable.unnamed number).name) ∘ Prod.snd := rfl
    rw [hsplit, ← List.map_map, hnumbers]
    have hinjective : Function.Injective fun number => (Variable.unnamed number).name := fun m n hmn =>
      Variable.unnamed.inj (Variable.name_injective hmn)
    exact List.Nodup.map hinjective (List.nodup_range' 1)
  refine ⟨hinOrder, fun i j id text hnode => ?_, fun i j id text hnode i' j' => ?_⟩
  · obtain ⟨t, ht, hbody⟩ := nodeAt?_eq_some_iff.1 hnode
    obtain ⟨function, hfunction, hcompile⟩ := exists_function h ht
    have hmem : ((Variable.unnamed (messageNumber ts i j)).name, text) ∈
        (function.routine takesInjected).definitions := by
      obtain ⟨after, hsplit⟩ := exists_take_eq hbody (List.getElem?_eq_some_iff.1 hbody).1
      rw [List.take_length] at hsplit
      rw [definitions_routine, definitions_of_unnamed hstyle hcompile, hsplit, uses_append, unnamedDefinitions_append,
        List.map_append, List.mem_append]
      refine .inr (List.mem_map.2 ⟨⟨.unnamed (messageNumber ts i j), text⟩, ?_, rfl⟩)
      rw [messageNumber_eq ht, Nat.zero_add]
      exact List.mem_cons_self
    have hrs : (functions.map (Function.routine takesInjected))[i]? = some (function.routine takesInjected) := by
      rw [List.getElem?_map, hfunction, Option.map_some]
    refine ⟨filter_key_eq_singleton hnodup ?_, _, hrs, hmem⟩
    exact List.mem_flatMap.2 ⟨_, List.mem_of_getElem? hrs, hmem⟩
  · rw [valueAt?_eq_some_iff h takesInjected]
    constructor
    · rintro ⟨t, node, e, ht, hbody, hvalue, hterm⟩
      cases e with
      | use v =>
        obtain rfl : v = .unnamed (messageNumber ts i j) := Variable.name_injective (Term.var.inj hterm)
        obtain ⟨hnumber, id', text', rfl⟩ := (valueAfter_eq_use_iff hstyle).1 hvalue
        exact messageNumber_injective (nodeAt?_eq_some_iff.2 ⟨t, ht, hbody⟩) hnode hnumber.symm
      | _ => cases hterm
    · rintro ⟨rfl, rfl⟩
      obtain ⟨t, ht, hbody⟩ := nodeAt?_eq_some_iff.1 hnode
      exact ⟨t, _, _, ht, hbody, (valueAfter_eq_use_iff hstyle).2 ⟨rfl, id, text, rfl⟩, rfl⟩

/-! ## External messages -/

/-- **The messages of a template under their ids.**  Each id is defined once, where it comes first, with the text of all
its messages; they all append its variable, and no message of another id does. -/
structure Shared (body : List Node) (r : Routine) : Prop where
  inOrder : r.definitions.map Prod.fst = ((uses body).map Use.id).eraseDups.map fun id => (Variable.external id).name
  definedOnce : ∀ id text, .messageText id text ∈ body →
    r.definitions.filter (fun d => d.1 = (Variable.external id).name) = [((Variable.external id).name, text)]
  used : ∀ (j : Nat) (id text : String), body[j]? = some (.messageText id text) →
    r.appended[j]? = some (.var (Variable.external id).name)
  apart : ∀ (j j' : Nat) (id id' text text' : String), body[j]? = some (.messageText id text) →
    body[j']? = some (.messageText id' text') → id ≠ id' → r.appended[j]? ≠ r.appended[j']?

/-- **Each id that is not defined yet is defined once**, where it comes first. -/
theorem targets_externalDefinitions : ∀ {us defined : List Use} {ds : List Definition},
    externalDefinitions defined us = .ok ds → ds.map Definition.target =
      (((us.map Use.id).filter fun id => id ∉ defined.map Use.id).eraseDups).map Variable.external
  | [], _, ds, h => by
    cases h
    rfl
  | u :: us, defined, ds, h => by
    rw [externalDefinitions] at h
    split at h
    · next d hfind =>
      obtain ⟨hd, hid⟩ := find?_use hfind
      have hold : u.id ∈ defined.map Use.id := List.mem_map.2 ⟨d, hd, hid⟩
      split at h
      · rw [targets_externalDefinitions h, List.map_cons, List.filter_cons_of_neg (by simpa using hold)]
      · cases h
    · next hfind =>
      obtain ⟨others, hothers, rfl⟩ := map_eq_ok h
      have hnew : u.id ∉ defined.map Use.id := by
        intro hold
        obtain ⟨d, hd, hid⟩ := List.mem_map.1 hold
        exact List.find?_eq_none.1 hfind d hd (by simpa using hid)
      have hrest : ((us.map Use.id).filter fun id => id ∉ (u :: defined).map Use.id) =
          ((us.map Use.id).filter fun id => id ∉ defined.map Use.id).filter fun id => !id == u.id := by
        rw [List.filter_filter]
        refine List.filter_congr fun id _ => ?_
        by_cases hid : id = u.id <;> simp [hid]
      rw [List.map_cons, targets_externalDefinitions hothers, hrest, List.map_cons,
        List.filter_cons_of_pos (by simpa using hnew), List.eraseDups_cons, List.map_cons]

theorem exists_use_of_mem_externalDefinitions : ∀ {us defined : List Use} {ds : List Definition},
    externalDefinitions defined us = .ok ds → ∀ d ∈ ds, ∃ u ∈ us, d = ⟨.external u.id, u.text⟩
  | [], _, ds, h, d, hd => by
    cases h
    cases hd
  | u :: us, defined, ds, h, d, hd => by
    have hlater : (∃ v ∈ us, d = ⟨.external v.id, v.text⟩) → ∃ v ∈ u :: us, d = ⟨.external v.id, v.text⟩ :=
      fun ⟨v, hv, hdv⟩ => ⟨v, List.mem_cons_of_mem u hv, hdv⟩
    rw [externalDefinitions] at h
    split at h
    · split at h
      · exact hlater (exists_use_of_mem_externalDefinitions h d hd)
      · cases h
    · obtain ⟨others, hothers, rfl⟩ := map_eq_ok h
      rcases List.mem_cons.1 hd with rfl | hd
      · exact ⟨u, List.mem_cons_self, rfl⟩
      · exact hlater (exists_use_of_mem_externalDefinitions hothers d hd)

theorem mem_uses_iff {body : List Node} {id text : String} :
    ⟨id, text⟩ ∈ uses body ↔ .messageText id text ∈ body := by
  rw [uses, List.mem_filterMap]
  constructor
  · rintro ⟨node, hnode, huse⟩
    cases node with
    | messageText id' text' =>
      cases huse
      exact hnode
    | _ => cases huse
  · intro h
    exact ⟨_, h, rfl⟩

theorem shared_of_compile (hstyle : messageStyle c.options = .external) {before : Nat} {t : Template} {f : Function}
    (h : functionAfter c package before t = .ok f) (takesInjected : Bool) :
    Shared t.body (f.routine takesInjected) := by
  have hone := oneText_of_functionAfter hstyle h
  obtain ⟨-, hd, hbody⟩ := functionAfter_eq_ok h
  rw [hstyle] at hd
  have htargets : f.definitions.map Definition.target = ((uses t.body).map Use.id).eraseDups.map Variable.external := by
    have hall : ((uses t.body).map Use.id).filter (fun id => id ∉ ([] : List Use).map Use.id) = (uses t.body).map Use.id :=
      List.filter_eq_self.2 fun id _ => by simp
    rw [targets_externalDefinitions hd, hall]
  have hnames : (f.routine takesInjected).definitions.map Prod.fst =
      ((uses t.body).map Use.id).eraseDups.map fun id => (Variable.external id).name := by
    have hmap := congrArg (List.map Variable.name) htargets
    rw [List.map_map, List.map_map] at hmap
    rw [definitions_routine, List.map_map]
    exact hmap
  have hinjective : Function.Injective fun id => (Variable.external id).name := fun id id' hid =>
    Variable.external.inj (Variable.name_injective hid)
  have hused : ∀ (j : Nat) (id text : String), t.body[j]? = some (.messageText id text) →
      (f.routine takesInjected).appended[j]? = some (.var (Variable.external id).name) := by
    intro j id text hj
    have hvalue : valueAfter c (functionName package t.name) (before + (uses (t.body.take j)).length)
        (.messageText id text) = .ok (.use (.external id)) := by
      rw [valueAfter, hstyle]
      rfl
    exact getElem?_appended hbody takesInjected hj hvalue
  refine ⟨hnames, fun id text hmem => ?_, hused, fun j j' id id' text text' hj hj' hne heq => ?_⟩
  · have hkeys : ((f.routine takesInjected).definitions.map Prod.fst).Nodup := by
      rw [hnames]
      exact List.Nodup.map hinjective (nodup_eraseDups _)
    have htarget : Variable.external id ∈ f.definitions.map Definition.target := by
      rw [htargets]
      refine List.mem_map_of_mem (List.mem_eraseDups.2 ?_)
      exact List.mem_map.2 ⟨⟨id, text⟩, mem_uses_iff.2 hmem, rfl⟩
    obtain ⟨d, hdmem, hdtarget⟩ := List.mem_map.1 htarget
    obtain ⟨u, hu, rfl⟩ := exists_use_of_mem_externalDefinitions hd d hdmem
    obtain rfl : u.id = id := Variable.external.inj hdtarget
    have htext : text = u.text := hone ⟨u.id, text⟩ (mem_uses_iff.2 hmem) u hu rfl
    refine filter_key_eq_singleton hkeys ?_
    rw [definitions_routine, htext]
    exact List.mem_map.2 ⟨_, hdmem, rfl⟩
  · rw [hused j id text hj, hused j' id' text' hj'] at heq
    exact hne (hinjective (Term.var.inj (Option.some.inj heq)))

/-! ## Messages in line -/

/-- **Nothing is defined, and a message stands where it is used.** -/
structure InLine (body : List Node) (r : Routine) : Prop where
  undefined : r.definitions = []
  used : ∀ (j : Nat) (id text : String), body[j]? = some (.messageText id text) →
    r.appended[j]? = some (.literal text)

theorem messageStyle_eq_inline {o : Options} (hdefs : o.generatesMessageDefs = false) : messageStyle o = .inline := by
  simp [messageStyle, Options.messagesAreExternalEffective, hdefs]

theorem inLine_of_compile (hstyle : messageStyle c.options = .inline) {before : Nat} {t : Template} {f : Function}
    (h : functionAfter c package before t = .ok f) (takesInjected : Bool) :
    InLine t.body (f.routine takesInjected) := by
  obtain ⟨-, hd, hbody⟩ := functionAfter_eq_ok h
  rw [hstyle] at hd
  refine ⟨?_, fun j id text hj => ?_⟩
  · rw [definitions_routine, ← Except.ok.inj hd]
    rfl
  · have hvalue : valueAfter c (functionName package t.name) (before + (uses (t.body.take j)).length)
        (.messageText id text) = .ok (.literal text) := by
      rw [valueAfter, hstyle]
      rfl
    exact getElem?_appended hbody takesInjected hj hvalue

/-! ## Files -/

/-- **What a text defines and uses of the messages of its file**: in every function the definitions come first and each
node appends one value, and the messages are numbered, shared or in line as the options ask. -/
structure MessagesMatch (o : Options) (ts : List Template) (rs : List Routine) : Prop where
  ordered : List.Forall₂ (fun t r => r.Ordered ∧ r.appended.length = t.body.length) ts rs
  numbered : o.generatesMessageDefs = true → o.messagesAreExternal = false → Numbered ts rs
  shared : o.generatesMessageDefs = true → o.messagesAreExternal = true →
    List.Forall₂ (fun t r => Shared t.body r) ts rs
  inLine : o.generatesMessageDefs = false → List.Forall₂ (fun t r => InLine t.body r) ts rs

/-- **Definitions and uses of messages match** in every text that is emitted. -/
theorem emit_messages {f : TemplateFile} {text : String} (h : emit c f = .ok text) :
    ∃ rs, routines? f.path text = some rs ∧ MessagesMatch c.options f.templates rs := by
  obtain ⟨p, hp, rfl⟩ := emit_eq_ok h
  obtain ⟨-, -, hfunctions⟩ := compile_eq_ok hp
  have heach := functionsAfter_eq_ok hfunctions
  refine ⟨_, routines?_of_compile hp, ?_, fun hdefs hexternal => ?_, fun hdefs hexternal => ?_, fun hdefs => ?_⟩
  · refine List.forall₂_map_right_iff.2 (heach.imp fun t function hc => ?_)
    obtain ⟨before, hc⟩ := hc
    refine ⟨ordered_routine _ function, ?_⟩
    rw [appended_routine, List.length_map, length_valuesAfter (functionAfter_eq_ok hc).2.2]
  · exact numbered_of_compile (messageStyle_eq_unnamed hdefs hexternal) hfunctions _
  · refine List.forall₂_map_right_iff.2 (heach.imp fun t function hc => ?_)
    exact shared_of_compile (messageStyle_eq_external hdefs hexternal) hc.choose_spec _
  · refine List.forall₂_map_right_iff.2 (heach.imp fun t function hc => ?_)
    exact inLine_of_compile (messageStyle_eq_inline hdefs) hc.choose_spec _

/-- Two templates with a message of one id, whose numbers go on from the one to the other. -/
theorem emit_messages_greeting : ∃ c f text rs, c.options.generatesMessageDefs = true ∧
    f.templates = [⟨"head", [.messageText "title" "One", .rawText "<hr>", .messageText "title" "Two"]⟩,
      ⟨"foot", [.rawText "<hr>", .messageText "title" "One"]⟩] ∧
    emit c f = .ok text ∧ routines? f.path text = some rs ∧ MessagesMatch c.options f.templates rs := by
  let c : Context := ⟨{ generatesMessageDefs := true }, .fixed .ltr, none⟩
  let f : TemplateFile := ⟨"page.tpl", "page",
    [⟨"head", [.messageText "title" "One", .rawText "<hr>", .messageText "title" "Two"]⟩,
      ⟨"foot", [.rawText "<hr>", .messageText "title" "One"]⟩]⟩
  obtain ⟨text, h⟩ : ∃ text, emit c f = .ok text := ⟨_, rfl⟩
  obtain ⟨rs, hrs, hmatch⟩ := emit_messages h
  exact ⟨c, f, text, rs, rfl, rfl, h, hrs, hmatch⟩

end Php
end Stencil
