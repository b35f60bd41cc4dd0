import Stencil.Proofs.Php.Fault
/-!
# Conflict — message ids with two texts

Where messages are external, each template gives an id one text or is refused, and the id that is named is the first whose
text changes (`externalDefinitions_eq_error_iff`).  The texts defined so far are those of one template, so an id that has
one text in a template and another in the next is not found (`emit_two_texts`); what is refused is told by
`emit_conflicting_iff`.
-/
namespace Stencil
namespace Php

/-- No message id has two texts. -/
def OneText (us : List Use) : Prop := ∀ u ∈ us, ∀ v ∈ us, u.id = v.id → u.text = v.text

theorem oneText_nil : OneText [] := fun _ h => nomatch h

theorem OneText.mono {us vs : List Use} (h : OneText us) (hs : vs ⊆ us) : OneText vs :=
  fun u hu v hv => h u (hs hu) v (hs hv)

/-- The first message of an id that had another text before. -/
structure Changes (us before : List Use) (u : Use) : Prop where
  isPrefix : ∃ after, us = before ++ u :: after
  oneText : OneText before
  other : ∃ v ∈ before, v.id = u.id ∧ v.text ≠ u.text

theorem Changes.not_oneText {us before : List Use} {u : Use} (h : Changes us before u) : ¬ OneText us := by
  intro hone
  obtain ⟨after, rfl⟩ := h.isPrefix
  obtain ⟨v, hv, hid, htext⟩ := h.other
  exact htext (hone v (List.mem_append_left _ hv) u (by simp) hid)

/-- Of two messages where a text changes, neither is before the other. -/
theorem Changes.eq {us before before' : List Use} {u u' : Use} (h : Changes us before u) (h' : Changes us before' u') :
    u = u' := by
  obtain ⟨after, hus⟩ := h.isPrefix
  obtain ⟨after', hus'⟩ := h'.isPrefix
  rw [hus] at hus'
  rcases List.append_eq_append_iff.1 hus' with ⟨between, hb, ha⟩ | ⟨between, hb, ha⟩
  · cases between with
    | nil => exact (List.cons.inj ha).1
    | cons w between =>
      obtain ⟨rfl, -⟩ := List.cons.inj ha
      exact absurd h'.oneText (Changes.not_oneText ⟨⟨between, hb⟩, h.oneText, h.other⟩)
  · cases between with
    | nil => exact (List.cons.inj ha).1.symm
    | cons w between =>
      obtain ⟨rfl, -⟩ := List.cons.inj ha
      exact absurd h.oneText (Changes.not_oneText ⟨⟨between, hb⟩, h'.oneText, h'.other⟩)

/-! ## Definitions -/

theorem find?_use {defined : List Use} {id : String} {d : Use} (h : defined.find? (fun d => d.id == id) = some d) :
    d ∈ defined ∧ d.id = id :=
  ⟨List.mem_of_find?_eq_some h, by simpa using List.find?_some h⟩

theorem OneText.cons {defined : List Use} {u : Use} (h : OneText defined)
    (hu : defined.find? (fun d => d.id == u.id) = none) : OneText (u :: defined) := by
  have hnew : ∀ d ∈ defined, d.id ≠ u.id := by simpa using List.find?_eq_none.1 hu
  intro v hv w hw hid
  rcases List.mem_cons.1 hv with rfl | hold <;> rcases List.mem_cons.1 hw with rfl | hold'
  · rfl
  · exact absurd hid.symm (hnew w hold')
  · exact absurd hid (hnew v hold)
  · exact h v hold w hold' hid

/-- What was defined before a message may be told with the message or without it, where it was defined already. -/
theorem Changes.shift {defined earlier us before : List Use} {u w : Use} (hsub : ∀ vs, defined ++ u :: vs ⊆ earlier ++ vs)
    (hearlier : earlier ⊆ u :: defined) (h : Changes (earlier ++ us) (earlier ++ before) w) :
    Changes (defined ++ u :: us) (defined ++ u :: before) w := by
  obtain ⟨⟨after, hafter⟩, hone, v, hv, hother⟩ := h
  have hsplit : us = before ++ w :: after := by simpa using hafter
  refine ⟨⟨after, by simp [hsplit]⟩, hone.mono (hsub before), v, ?_, hother⟩
  rcases List.mem_append.1 hv with hv | hv
  · rcases List.mem_cons.1 (hearlier hv) with rfl | hv <;> simp [*]
  · simp [hv]

/-- **External definitions are made exactly while each id keeps its text**, the texts of `defined` among them. -/
theorem externalDefinitions_cases : ∀ (us : List Use) {defined : List Use}, OneText defined →
    (∃ ds, externalDefinitions defined us = .ok ds ∧ OneText (defined ++ us)) ∨
      ∃ before u, Changes (defined ++ us) (defined ++ before) u ∧
        externalDefinitions defined us = .error (.conflictingMessageText u.id)
  | [], defined, h => .inl ⟨[], rfl, by simpa using h⟩
  | u :: us, defined, h => by
    rw [externalDefinitions]
    cases hfind : defined.find? fun d => d.id == u.id with
    | some d =>
      obtain ⟨hd, hid⟩ := find?_use hfind
      by_cases htext : d.text = u.text
      · have hmem : u ∈ defined := by
          obtain ⟨_, _⟩ := u
          obtain ⟨_, _⟩ := d
          cases hid
          cases htext
          exact hd
        have hsub : ∀ vs, defined ++ u :: vs ⊆ defined ++ vs := fun vs => by simp [hmem]
        simp only [htext, if_true]
        rcases externalDefinitions_cases us h with ⟨ds, hds, hone⟩ | ⟨before, w, hw, herror⟩
        · exact .inl ⟨ds, hds, hone.mono (hsub us)⟩
        · exact .inr ⟨u :: before, w, hw.shift hsub (List.subset_cons_self u defined), herror⟩
      · simp only [htext, if_false]
        exact .inr ⟨[], u, ⟨⟨us, by simp⟩, by simpa using h, d, by simpa using hd, hid, htext⟩, rfl⟩
    | none =>
      have hsub : ∀ vs, defined ++ u :: vs ⊆ u :: defined ++ vs := fun vs => by simp
      rcases externalDefinitions_cases us (h.cons hfind) with ⟨ds, hds, hone⟩ | ⟨before, w, hw, herror⟩
      · exact .inl ⟨_, by rw [hds]; rfl, hone.mono (hsub us)⟩
      · exact .inr ⟨u :: before, w, hw.shift hsub (List.Subset.refl _), by rw [herror]; rfl⟩

theorem externalDefinitions_eq_error_iff {us : List Use} {id : String} :
    externalDefinitions [] us = .error (.conflictingMessageText id) ↔ ∃ before u, Changes us before u ∧ u.id = id := by
  rcases externalDefinitions_cases us oneText_nil with ⟨ds, hds, hone⟩ | ⟨before, u, hu, herror⟩
  · rw [hds]
    constructor
    · intro h
      cases h
    · rintro ⟨before, u, hu, -⟩
      exact absurd hone hu.not_oneText
  · rw [herror]
    constructor
    · intro h
      cases h
      exact ⟨before, u, hu, rfl⟩
    · rintro ⟨before', u', hu', rfl⟩
      rw [Changes.eq hu hu']

theorem oneText_of_externalDefinitions {us : List Use} {ds : List Definition}
    (h : externalDefinitions [] us = .ok ds) : OneText us := by
  rcases externalDefinitions_cases us oneText_nil with ⟨-, -, hone⟩ | ⟨before, u, -, herror⟩
  · exact hone
  · rw [herror] at h
    cases h

/-! ## Files -/

variable {c : Context} {package : String}

theorem functionsAfter_fault {cause : EmitError} : ∀ {ts : List Template} {before : Nat},
    functionsAfter c package before ts = .error cause → ∃ done t rest functions, ts = done ++ t :: rest ∧
      functionsAfter c package before done = .ok functions ∧ ∃ before, functionAfter c package before t = .error cause
  | t :: ts, before, h => by
    rw [functionsAfter] at h
    rcases bind_eq_error h with h | ⟨function, ht, h⟩
    · exact ⟨[], t, ts, [], rfl, rfl, before, h⟩
    · rcases bind_eq_error h with h | ⟨functions, -, h⟩
      · obtain ⟨done, t', rest, functions, rfl, hdone, hfault⟩ := functionsAfter_fault h
        refine ⟨t :: done, t', rest, function :: functions, rfl, ?_, hfault⟩
        rw [functionsAfter, ht]
        show functionsAfter c package _ done >>= _ = _
        rw [hdone]
        rfl
      · cases h

/-- A template that is at fault after any number of messages ends the compilation. -/
theorem functionsAfter_of_fault {t : Template} {cause : EmitError} (rest : List Template)
    (ht : ∀ before, functionAfter c package before t = .error cause) :
    ∀ {done : List Template} {before : Nat} {functions : List Function},
      functionsAfter c package before done = .ok functions →
        functionsAfter c package before (done ++ t :: rest) = .error cause
  | [], before, _, _ => by
    rw [List.nil_append, functionsAfter, ht before]
    rfl
  | d :: done, before, functions, h => by
    rw [functionsAfter] at h
    obtain ⟨function, hd, h⟩ := bind_eq_ok h
    obtain ⟨others, hothers, -⟩ := bind_eq_ok h
    rw [List.cons_append, functionsAfter, hd]
    show functionsAfter c package _ (done ++ t :: rest) >>= _ = _
    rw [functionsAfter_of_fault rest ht hothers]
    rfl

/-- **A template is refused for its messages exactly where one of its ids gets a second text.** -/
theorem functionAfter_conflicting_iff (hstyle : messageStyle c.options = .external) {before : Nat} {t : Template}
    {id : String} : functionAfter c package before t = .error (.conflictingMessageText id) ↔
      ∃ earlier u, Changes (uses t.body) earlier u ∧ u.id = id := by
  rw [← externalDefinitions_eq_error_iff]
  have hdefs : definitionsAfter (messageStyle c.options) before (uses t.body) = externalDefinitions [] (uses t.body) := by
    rw [hstyle]
    rfl
  constructor
  · intro h
    rcases bind_eq_error h with h | ⟨defined, -, h⟩
    · rwa [hdefs] at h
    · rcases bind_eq_error h with h | ⟨appended, -, h⟩
      · -- No node has this fault.
        obtain ⟨node, -, n, hv⟩ := valuesAfter_eq_error h
        rcases valueAfter_eq_error hv with ⟨m, -, hm⟩ | ⟨expression, injected, -, he | he⟩ <;> simp at *
      · cases h
  · intro h
    rw [functionAfter, hdefs, h]
    rfl

theorem oneText_of_functionAfter (hstyle : messageStyle c.options = .external) {before : Nat} {t : Template}
    {f : Function} (h : functionAfter c package before t = .ok f) : OneText (uses t.body) := by
  obtain ⟨-, hdefs, -⟩ := functionAfter_eq_ok h
  rw [hstyle] at hdefs
  exact oneText_of_externalDefinitions hdefs

theorem oneText_of_functionsAfter (hstyle : messageStyle c.options = .external) {before : Nat} {ts : List Template}
    {functions : List Function} (h : functionsAfter c package before ts = .ok functions) :
    ∀ t ∈ ts, OneText (uses t.body) := by
  have hall := (functionsAfter_eq_ok h).imp fun t f (hc : ∃ before, functionAfter c package before t = .ok f) =>
    And.intro (oneText_of_functionAfter hstyle hc.choose_spec) trivial
  exact ((List.forall₂_and_left _ _).1 hall).1

theorem messageStyle_eq_external {o : Options} (hdefs : o.generatesMessageDefs = true)
    (hexternal : o.messagesAreExternal = true) : messageStyle o = .external := by
  rw [messageStyle, Options.messagesAreExternalEffective, hdefs, hexternal]
  rfl

theorem emit_eq_error_iff {f : TemplateFile} {cause : EmitError} :
    emit c f = .error cause ↔ functionsAfter c f.package 0 f.templates = .error cause := by
  rw [emit, compile_eq]
  cases functionsAfter c f.package 0 f.templates <;> simp [Except.map]

theorem emit_eq_ok_iff {f : TemplateFile} :
    (∃ text, emit c f = .ok text) ↔ ∃ functions, functionsAfter c f.package 0 f.templates = .ok functions := by
  rw [emit, compile_eq]
  cases functionsAfter c f.package 0 f.templates <;> simp [Except.map]

/-- **Where messages are external, the check for two texts is made template by template.**  A file that is emitted has one
text for an id in each of its templates, and a file is refused for an id exactly when the templates up to some one are
emitted and that one gives the id a second text. -/
theorem emit_conflicting_iff (hdefs : c.options.generatesMessageDefs = true)
    (hexternal : c.options.messagesAreExternal = true) (f : TemplateFile) :
    ((∃ text, emit c f = .ok text) → ∀ t ∈ f.templates, OneText (uses t.body)) ∧
      ∀ id, emit c f = .error (.conflictingMessageText id) ↔ ∃ done t rest, f.templates = done ++ t :: rest ∧
        (∃ text, emit c { f with templates := done } = .ok text) ∧ ∃ earlier u, Changes (uses t.body) earlier u ∧ u.id = id := by
  have hstyle : messageStyle c.options = .external := messageStyle_eq_external hdefs hexternal
  refine ⟨fun h t ht => ?_, fun id => ?_⟩
  · obtain ⟨functions, hf⟩ := emit_eq_ok_iff.1 h
    exact oneText_of_functionsAfter hstyle hf t ht
  · rw [emit_eq_error_iff]
    constructor
    · intro h
      obtain ⟨done, t, rest, functions, hts, hdone, before, hfault⟩ := functionsAfter_fault h
      exact ⟨done, t, rest, hts, emit_eq_ok_iff.2 ⟨functions, hdone⟩, (functionAfter_conflicting_iff hstyle).1 hfault⟩
    · rintro ⟨done, t, rest, hts, hdone, hchanges⟩
      obtain ⟨functions, hdone⟩ := emit_eq_ok_iff.1 hdone
      rw [hts]
      exact functionsAfter_of_fault rest (fun _ => (functionAfter_conflicting_iff hstyle).2 hchanges) hdone

/-- A run whose messages are external. -/
def externally : Context := ⟨{ generatesMessageDefs := true, messagesAreExternal := true }, .fixed .ltr, none⟩

/-- The second template of a page gives its title two texts. -/
theorem emit_conflicting_iff_title : externally.options.generatesMessageDefs = true ∧
    externally.options.messagesAreExternal = true ∧
      emit externally ⟨"page.tpl", "page", [⟨"head", [.messageText "title" "One"]⟩,
        ⟨"body", [.messageText "title" "Two", .print "user..name" false, .messageText "title" "Three"]⟩]⟩ =
          .error (.conflictingMessageText "title") := by
  refine ⟨rfl, rfl, ((emit_conflicting_iff rfl rfl _).2 "title").2
    ⟨[⟨"head", [.messageText "title" "One"]⟩], _, [], rfl, emit_eq_ok_iff.2 ⟨_, rfl⟩, [⟨"title", "Two"⟩], ⟨"title", "Three"⟩, ?_, rfl⟩⟩
  refine ⟨⟨[], rfl⟩, ?_, ⟨"title", "Two"⟩, ?_, rfl, ?_⟩
  · unfold OneText
    decide
  · decide
  · decide

/-- **An id may have one text in a template and another in the next**: the file is emitted. -/
theorem emit_two_texts : ¬ ∀ (c : Context) (f : TemplateFile), c.options.generatesMessageDefs = true →
    c.options.messagesAreExternal = true → (∃ text, emit c f = .ok text) → ∀ id text text',
      .messageText id text ∈ f.nodes → .messageText id text' ∈ f.nodes → text = text' := by
  intro h
  have htexts := h externally ⟨"page.tpl", "page", [⟨"head", [.messageText "title" "One"]⟩,
    ⟨"body", [.messageText "title" "Two"]⟩]⟩ rfl rfl (emit_eq_ok_iff.2 ⟨_, rfl⟩) "title" "One" "Two" (by decide) (by decide)
  exact absurd htexts (by decide)

end Php
end Stencil
