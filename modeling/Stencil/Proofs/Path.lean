import Stencil.Disk
import Stencil.Path
import Stencil.Proofs.Text.Split
/-!
# Path — the names of a path into a directory

The name of a generated file is `Plain`: it can only be the name of a file in a directory.  A path into a directory
starts where the directory's own path starts (`isAbsolute_join`) and goes by its names, and then by the plain name
(`names_join`).
-/
namespace Stencil
namespace Path

/-- A name of a file, and of no directory. -/
structure Plain (name : String) : Prop where
  slashless : '/' ∉ name.toList
  ne_empty : name ≠ ""
  ne_dot : name ≠ "."
  ne_parent : name ≠ ".."

/-! ## Names of generated files -/

theorem slashless_of_mem_splitOn {path name : String} (h : name ∈ Text.splitOn '/' path) : '/' ∉ name.toList := by
  obtain ⟨s, hs, rfl⟩ := List.mem_map.1 h
  rw [String.toList_ofList]
  intro hc
  exact absurd (Text.not_sep_of_mem_pieces _ _ s hs _ hc) (by decide)

theorem slashless_of_fileName? {path name : String} (h : fileName? path = some name) : '/' ∉ name.toList :=
  slashless_of_mem_splitOn
    (List.mem_filter.1 (List.mem_of_getLast? (Option.eq_some_of_filter_eq_some h))).1

theorem mem_of_mem_stemOf {name : List Char} {c : Char} (h : c ∈ stemOf name) : c = '.' ∨ c ∈ name := by
  unfold stemOf at h
  split at h
  · exact .inr h
  · exact .inr h
  · rcases Text.mem_intercalate h with h | ⟨part, hpart, hc⟩
    · exact .inl (List.mem_singleton.1 h)
    · exact .inr (Text.mem_of_mem_pieces ((List.dropLast_sublist _).subset hpart) hc)

theorem slashless_stem (path : String) : '/' ∉ (stem path).toList := by
  unfold stem
  split
  · next name hname =>
    rw [String.toList_ofList]
    intro h
    rcases mem_of_mem_stemOf h with h | h
    · exact absurd h (by decide)
    · exact slashless_of_fileName? hname h
  · exact List.not_mem_nil

theorem toList_phpFileName (path : String) :
    (phpFileName path).toList = (stem path).toList ++ ['.', 'p', 'h', 'p'] := by
  rw [phpFileName, String.toList_append]
  rfl

/-- **A generated file is named like a file.** -/
theorem phpFileName_plain (path : String) : Plain (phpFileName path) := by
  have hlast : (phpFileName path).toList.getLast? = some 'p' := by
    rw [toList_phpFileName, List.getLast?_append]
    rfl
  refine ⟨?_, ?_, ?_, ?_⟩
  · rw [toList_phpFileName, List.mem_append]
    rintro (h | h)
    · exact slashless_stem path h
    · exact absurd h (by decide)
  all_goals
    intro h
    rw [h] at hlast
    exact absurd hlast (by decide)

/-! ## Names in a directory -/

variable {directory name : String}

/-- A path into a directory is the directory, one slash and the name. -/
theorem toList_join (name : String) (h : directory ≠ "") :
    ∃ before, (directory.toList = before ∨ directory.toList = before ++ ['/']) ∧
      (join directory name).toList = before ++ '/' :: name.toList := by
  have hd : directory.isEmpty = false := by
    rwa [← Bool.not_eq_true, String.isEmpty_iff]
  rw [join, hd, if_neg Bool.false_ne_true]
  split
  · next hlast =>
    obtain ⟨before, hbefore⟩ := List.getLast?_eq_some_iff.1 (beq_iff_eq.1 hlast)
    refine ⟨before, .inr hbefore, ?_⟩
    rw [String.toList_append, hbefore, List.append_assoc, List.singleton_append]
  · refine ⟨directory.toList, .inl rfl, ?_⟩
    rw [String.toList_append, String.toList_append, List.append_assoc]
    rfl

theorem names_eq (path : String) : Location.names path =
    ((Text.pieces (· == '/') path.toList).map String.ofList).filter fun name => !name.isEmpty := rfl

theorem names_of_plain (h : Plain name) : Location.names name = [name] := by
  have hsep : ∀ c ∈ name.toList, (c == '/') = false := by
    intro c hc
    exact beq_eq_false_iff_ne.2 fun he => h.slashless (he ▸ hc)
  rw [names_eq, Text.pieces_eq_singleton hsep, List.map_singleton, String.ofList_toList, List.filter_cons_of_pos, List.filter_nil]
  simpa using h.ne_empty

theorem names_ne_nil {path : String} (h : path ≠ "") (hrelative : Location.isAbsolute path = false) :
    Location.names path ≠ [] := by
  obtain ⟨c, cs, hpath⟩ := List.exists_cons_of_ne_nil (mt String.toList_eq_nil_iff.1 h)
  have hc : (c == '/') = false := by simpa [Location.isAbsolute, hpath] using hrelative
  have hpieces : ∃ p ps, Text.pieces (· == '/') path.toList = (c :: p) :: ps := by
    rw [hpath, Text.pieces, hc, if_neg Bool.false_ne_true]
    split
    · exact ⟨[], [], rfl⟩
    · next p ps _ => exact ⟨p, ps, rfl⟩
  obtain ⟨p, ps, hpieces⟩ := hpieces
  rw [names_eq, hpieces, List.map_cons, List.filter_cons_of_pos (by simp)]
  exact List.cons_ne_nil _ _

theorem names_append_slash (first rest : String) :
    Location.names (first ++ "/" ++ rest) = Location.names first ++ Location.names rest := by
  have hlist : (first ++ "/" ++ rest).toList = first.toList ++ '/' :: rest.toList := by
    rw [String.toList_append, String.toList_append, List.append_assoc]
    rfl
  rw [names_eq, hlist, Text.pieces_append_cons rfl, List.map_append, List.filter_append, ← names_eq, ← names_eq]

theorem names_join (h : Plain name) : Location.names (join directory name) = Location.names directory ++ [name] := by
  by_cases hd : directory = ""
  · subst hd
    exact names_of_plain h
  · obtain ⟨before, hbefore, hjoin⟩ := toList_join name hd
    have hnames : Location.names directory =
        ((Text.pieces (· == '/') before).map String.ofList).filter fun name => !name.isEmpty := by
      rcases hbefore with hb | hb
      · rw [names_eq, hb]
      · rw [names_eq, hb, Text.pieces_append_cons rfl, List.map_append, List.filter_append]
        exact List.append_nil _
    rw [names_eq, hjoin, Text.pieces_append_cons rfl, List.map_append, List.filter_append, ← hnames, ← names_eq,
      names_of_plain h]

theorem isAbsolute_join (h : Plain name) :
    Location.isAbsolute (join directory name) = Location.isAbsolute directory := by
  have hhead : (join directory name).toList.head? = some '/' ↔ directory.toList.head? = some '/' := by
    by_cases hd : directory = ""
    · subst hd
      have hname : name.toList.head? ≠ some '/' := fun hc => h.slashless (List.mem_of_head? hc)
      exact ⟨fun hc => absurd hc hname, fun hc => nomatch hc⟩
    · obtain ⟨before, hbefore, hjoin⟩ := toList_join name hd
      rw [hjoin]
      rcases hbefore with hb | hb
      · have hne : before ≠ [] := fun hn => hd (String.toList_eq_nil_iff.1 (hb.trans hn))
        obtain ⟨c, cs, rfl⟩ := List.exists_cons_of_ne_nil hne
        rw [hb]
        exact Iff.rfl
      · rw [hb]
        cases before <;> exact Iff.rfl
  rw [Location.isAbsolute, Location.isAbsolute, Bool.eq_iff_iff, beq_iff_eq, beq_iff_eq, hhead]

theorem getLast?_join (h : Plain name) : (join directory name).toList.getLast? = name.toList.getLast? := by
  by_cases hd : directory = ""
  · subst hd
    rfl
  · obtain ⟨before, -, hjoin⟩ := toList_join name hd
    have hne : name.toList ≠ [] := fun hn => h.ne_empty (String.toList_eq_nil_iff.1 hn)
    obtain ⟨c, cs, hname⟩ := List.exists_cons_of_ne_nil hne
    rw [hjoin, hname, List.getLast?_append, List.getLast?_cons_cons, List.getLast?_cons, Option.some_or]

end Path
end Stencil
