import Stencil.Proofs.Php.Compile
/-!
# Clash — templates whose functions have one name

The function of a template keeps the letters, digits and underscores of its name, and every other character becomes an
underscore.  So two names that differ nowhere but in such characters make one function name (`functionName_eq_iff`), and
a file with such templates is emitted all the same, with a function defined twice (`emit_defines_twice`).  When it is not
is told by `emit_names_nodup_iff`.
-/
namespace Stencil
namespace Php

/-- Characters that a function name does not tell apart: they are the same, or neither is a letter or a digit. -/
def SameInName (c d : Char) : Prop := c = d ∨ c.isAlphanum = false ∧ d.isAlphanum = false

instance (c d : Char) : Decidable (SameInName c d) := inferInstanceAs (Decidable (_ ∨ _ ∧ _))

/-- **Names that become one**: of one length, with characters that a function name does not tell apart. -/
def Confusable (a b : String) : Prop := List.Forall₂ SameInName a.toList b.toList

instance (a b : String) : Decidable (Confusable a b) :=
  inferInstanceAs (Decidable (List.Forall₂ SameInName a.toList b.toList))

/-! ## Names -/

theorem identifier_eq (s : List Char) : identifier s = s.map fun c => if c.isAlphanum then c else '_' := by
  refine List.map_congr_left fun c _ => ?_
  by_cases hc : c.isAlphanum = true
  · simp [hc]
  · by_cases hu : c = '_' <;> simp [hc, hu]

theorem sameInName_iff {c d : Char} :
    SameInName c d ↔ (if c.isAlphanum then c else '_') = if d.isAlphanum then d else '_' := by
  have hne : ∀ e : Char, e.isAlphanum = true → e ≠ '_' := by
    rintro _ he rfl
    exact absurd he (by decide)
  unfold SameInName
  cases hc : c.isAlphanum <;> cases hd : d.isAlphanum
  · simp
  · have hcd : c ≠ d := fun h => by simp [h, hd] at hc
    simp [hcd, (hne d hd).symm]
  · have hcd : c ≠ d := fun h => by simp [h, hd] at hc
    simp [hcd, hne c hc]
  · simp

theorem identifier_eq_iff {s t : List Char} : identifier s = identifier t ↔ List.Forall₂ SameInName s t := by
  rw [identifier_eq, identifier_eq, map_eq_map_iff_forall₂]
  exact ⟨fun h => h.imp fun _ _ => sameInName_iff.2, fun h => h.imp fun _ _ => sameInName_iff.1⟩

/-- The parts of a namespace, as the names of its functions begin with them. -/
def packageParts (package : String) : List (List Char) :=
  ((Text.pieces (· == '.') package.toList).filter fun p => !p.isEmpty).map identifier

theorem toList_functionName_of_ne {package template : String} (h : template ≠ "") :
    (functionName package template).toList =
      (packageParts package).flatMap (· ++ ['_']) ++ identifier template.toList := by
  have hlast : [template.toList].filter (fun p => !p.isEmpty) = [template.toList] :=
    List.filter_cons_of_pos (by simpa using h)
  rw [functionName, String.toList_ofList, List.filter_append, hlast, List.map_append, List.map_singleton,
    Text.intercalate_concat]
  rfl

theorem toList_functionName_empty (package : String) :
    (functionName package "").toList = ['_'].intercalate (packageParts package) := by
  have hlast : [("" : String).toList].filter (fun p => !p.isEmpty) = [] := rfl
  rw [functionName, String.toList_ofList, List.filter_append, hlast, List.append_nil]
  rfl

/-- A template without a name has a shorter function name than any other of its file. -/
theorem functionName_empty_ne {package template : String} (h : template ≠ "") :
    functionName package "" ≠ functionName package template := by
  intro he
  have hlength := congrArg (fun s => s.toList.length) he
  have hle := Text.length_intercalate_le ['_'] (packageParts package)
  have hpos : 0 < template.toList.length := by
    rw [List.length_pos_iff]
    simpa using h
  simp only [toList_functionName_empty, toList_functionName_of_ne h, List.length_append, identifier, List.length_map]
    at hlength
  omega

/-- **Two templates of a file have one function name exactly if their own names are confusable.** -/
theorem functionName_eq_iff {package a b : String} :
    functionName package a = functionName package b ↔ Confusable a b := by
  rw [Confusable, ← identifier_eq_iff]
  by_cases ha : a = "" <;> by_cases hb : b = ""
  · exact iff_of_true (by rw [ha, hb]) (by rw [ha, hb])
  · subst ha
    refine iff_of_false (functionName_empty_ne hb) fun h => ?_
    simp [identifier, hb] at h
  · subst hb
    refine iff_of_false (functionName_empty_ne ha).symm fun h => ?_
    simp [identifier, ha] at h
  · rw [← String.toList_inj, toList_functionName_of_ne ha, toList_functionName_of_ne hb, List.append_cancel_left_eq]

/-- Names of word characters alone are confusable only with themselves. -/
theorem Confusable.eq {a b : String} (h : Confusable a b) (ha : ∀ c ∈ a.toList, isWordChar c = true)
    (hb : ∀ c ∈ b.toList, isWordChar c = true) : a = b := by
  have hword : ∀ s : List Char, (∀ c ∈ s, isWordChar c = true) → identifier s = s := by
    intro s hs
    refine (List.map_congr_left fun c hc => ?_).trans (List.map_id s)
    exact if_pos (hs c hc)
  have hsame := identifier_eq_iff.2 h
  rwa [hword _ ha, hword _ hb, String.toList_inj] at hsame

/-! ## Files -/

variable {c : Context} {f : TemplateFile} {text : String}

/-- **The functions of an emitted file are named for its templates**, in order. -/
theorem names_of_emit (h : emit c f = .ok text) : ∃ routines, routines? f.path text = some routines ∧
    routines.map Routine.name = f.templates.map fun t => functionName f.package t.name := by
  obtain ⟨p, hp, rfl⟩ := emit_eq_ok h
  refine ⟨_, routines?_of_compile hp, ?_⟩
  have hfunctions := functionsAfter_eq_ok (compile_eq_ok hp).2.2
  rw [List.map_map, eq_comm, map_eq_map_iff_forall₂]
  refine hfunctions.imp fun t function hc => ?_
  obtain ⟨before, hc⟩ := hc
  exact (functionAfter_eq_ok hc).1.symm

/-- **When the functions of a file have different names.**  An emitted file has one function for each template, in order,
and no name is used twice exactly if no two templates have confusable names.  So different names do for a file, where they
are made of letters, digits and underscores alone. -/
theorem emit_names_nodup_iff (h : emit c f = .ok text) :
    ∃ routines, routines? f.path text = some routines ∧
      routines.map Routine.name = f.templates.map (fun t => functionName f.package t.name) ∧
      ((routines.map Routine.name).Nodup ↔ f.templates.Pairwise fun t u => ¬ Confusable t.name u.name) ∧
      ((f.templates.map Template.name).Nodup → (∀ t ∈ f.templates, ∀ d ∈ t.name.toList, isWordChar d = true) →
        (routines.map Routine.name).Nodup) := by
  obtain ⟨routines, hroutines, hnames⟩ := names_of_emit h
  have hiff : (routines.map Routine.name).Nodup ↔ f.templates.Pairwise fun t u => ¬ Confusable t.name u.name := by
    rw [hnames, List.Nodup, List.pairwise_map]
    exact List.Pairwise.iff fun t u => not_congr functionName_eq_iff
  refine ⟨routines, hroutines, hnames, hiff, fun hnodup hword => hiff.2 ?_⟩
  refine (List.pairwise_map.1 hnodup).imp_of_mem fun {t u} ht hu hne hconfusable => ?_
  exact hne (hconfusable.eq (hword t ht) (hword u hu))

/-- A page of empty templates with the given names. -/
def emptyPage (names : List String) : TemplateFile := ⟨"page.tpl", "page", names.map fun name => ⟨name, []⟩⟩

/-- A context of default options, for text from left to right. -/
def leftToRight : Context := ⟨{}, .fixed .ltr, none⟩

/-- A head and a body have functions of their own. -/
theorem emit_names_nodup_iff_head : ∃ text routines, emit leftToRight (emptyPage ["head", "body_2", "foot-er"]) = .ok text ∧
    routines? "page.tpl" text = some routines ∧
      routines.map Routine.name = ["page_head", "page_body_2", "page_foot_er"] ∧ (routines.map Routine.name).Nodup := by
  obtain ⟨text, h⟩ : ∃ text, emit leftToRight (emptyPage ["head", "body_2", "foot-er"]) = .ok text := ⟨_, rfl⟩
  obtain ⟨routines, hroutines, hnames, hiff, -⟩ := emit_names_nodup_iff h
  exact ⟨text, routines, h, hroutines, hnames.trans (by decide), hiff.2 (by decide)⟩

/-- **Templates of different names can have one function name**: the file is emitted and defines it twice. -/
theorem emit_defines_twice : ¬ ∀ (c : Context) (f : TemplateFile) (text : String) (routines : List Routine),
    emit c f = .ok text → routines? f.path text = some routines → (f.templates.map Template.name).Nodup →
      (routines.map Routine.name).Nodup := by
  intro hall
  obtain ⟨text, h⟩ : ∃ text, emit leftToRight (emptyPage ["a-b", "a_b"]) = .ok text := ⟨_, rfl⟩
  obtain ⟨routines, hroutines, hnames⟩ := names_of_emit h
  have hnodup := hall _ _ _ _ h hroutines (by decide)
  rw [hnames] at hnodup
  exact absurd hnodup (by decide)

end Php
end Stencil
