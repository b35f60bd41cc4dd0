import Stencil.Disk
import Stencil.Proofs.Path
/-!
# Disk — the laws of reading and writing

A write changes the file that its path names (`read_of_write`) and nothing else: every other location holds what it held,
and no directory comes or goes (`changedOnlyAt_of_write`).  So every path that led somewhere still leads there
(`ChangedOnlyAt.resolve_eq_ok_iff`), and a path to another file reads the same (`ChangedOnlyAt.read_eq_ok_iff`); a sibling
of the changed files fails for the same reason, too (`ChangedOnlyAt.read_eq`).
-/
namespace Stencil
namespace Disk

variable {d before after : Disk} {l location : Location} {path : String} {bytes : ByteArray}

/-! ## Entries -/

theorem lookup_putEntry_self (l : Location) (e : Entry) : ∀ entries, (putEntry l e entries).lookup l = some e
  | [] => List.lookup_cons_self
  | (l', e') :: rest => by
    unfold putEntry
    split
    · exact List.lookup_cons_self
    · next h => rw [List.lookup_cons, beq_eq_false_iff_ne.2 (Ne.symm h), lookup_putEntry_self l e rest]

theorem lookup_putEntry_of_ne (h : location ≠ l) (e : Entry) :
    ∀ entries, (putEntry l e entries).lookup location = entries.lookup location
  | [] => by rw [putEntry, List.lookup_cons, beq_eq_false_iff_ne.2 h]
  | (l', e') :: rest => by
    unfold putEntry
    split
    · next hl =>
      subst hl
      rw [List.lookup_cons, List.lookup_cons, beq_eq_false_iff_ne.2 h]
    · rw [List.lookup_cons, List.lookup_cons, lookup_putEntry_of_ne h e rest]

/-- What is no directory is not where relative paths start, nor above it. -/
theorem not_prefix_of_at? (h : d.at? l ≠ some .directory) : ¬ l <+: d.home := fun hl => h (if_pos hl)

theorem at?_put_self (h : d.at? l ≠ some .directory) (e : Entry) : (d.put l e).at? l = some e :=
  (if_neg (not_prefix_of_at? h)).trans (lookup_putEntry_self l e d.entries)

theorem at?_put_of_ne (h : location ≠ l) (e : Entry) : (d.put l e).at? location = d.at? location := by
  rw [at?, at?, put, lookup_putEntry_of_ne h]

/-! ## Paths -/

/-- Where a path leads, once the directory that it goes through is known. -/
theorem resolve_eq_ok_iff {place : Place} : d.resolve path = .ok place ↔ path.isEmpty = false ∧
    ((Location.names path).getLast? = none ∧ place = .directory (d.start path) "." ∨
      ∃ name parent, (Location.names path).getLast? = some name ∧
        (Location.names path).dropLast.foldlM d.descend (d.start path) = .ok parent ∧
        place = if name = "." ∨ name = ".." ∨ path.toList.getLast? = some '/' then .directory parent name
          else .named (parent ++ [name])) := by
  simp only [resolve]
  cases path.isEmpty with
  | true => simp
  | false =>
    cases hnames : (Location.names path).getLast? with
    | none => simp [eq_comm]
    | some name =>
      cases hparent : (Location.names path).dropLast.foldlM d.descend (d.start path) with
      | error cause => simp
      | ok parent => simp [← apply_ite Except.ok, eq_comm]

theorem resolve_eq_named {l : Location} (h : d.resolve path = .ok (.named l)) :
    ∃ parent name, (Location.names path).getLast? = some name ∧ name ≠ "." ∧ name ≠ ".." ∧ l = parent ++ [name] := by
  obtain ⟨-, ⟨-, hplace⟩ | ⟨name, parent, hname, -, hplace⟩⟩ := resolve_eq_ok_iff.1 h
  · cases hplace
  · split at hplace
    · cases hplace
    · next hdot =>
      cases hplace
      exact ⟨parent, name, hname, fun hn => hdot (.inl hn), fun hn => hdot (.inr (.inl hn)), rfl⟩

/-- Where a path to a file in a directory leads. -/
theorem resolve_join {directory name : String} (h : Path.Plain name) :
    d.resolve (Path.join directory name) = .ok (.named l) ↔
      ∃ parent, (Location.names directory).foldlM d.descend (d.start directory) = .ok parent ∧
        l = parent ++ [name] := by
  have hempty : (Path.join directory name).isEmpty = false := by
    rw [← Bool.not_eq_true, String.isEmpty_iff]
    intro hjoin
    have hnames : Location.names (Path.join directory name) = Location.names directory ++ [name] := Path.names_join h
    rw [hjoin] at hnames
    exact List.append_ne_nil_of_right_ne_nil _ (List.cons_ne_nil name []) hnames.symm
  have hplain : ¬ (name = "." ∨ name = ".." ∨ (Path.join directory name).toList.getLast? = some '/') := by
    rw [Path.getLast?_join h]
    rintro (hdot | hdot | hslash)
    · exact h.ne_dot hdot
    · exact h.ne_parent hdot
    · exact h.slashless (List.mem_of_getLast? hslash)
  rw [resolve_eq_ok_iff, Path.names_join h, start, Path.isAbsolute_join h, ← start, List.getLast?_concat, List.dropLast_concat]
  constructor
  · rintro ⟨-, ⟨hnone, -⟩ | ⟨last, parent, hlast, hparent, hplace⟩⟩
    · cases hnone
    · cases hlast
      rw [if_neg hplain] at hplace
      cases hplace
      exact ⟨parent, hparent, rfl⟩
  · rintro ⟨parent, hparent, rfl⟩
    exact ⟨hempty, .inr ⟨name, parent, rfl, hparent, (if_neg hplain).symm⟩⟩

/-- The path that goes by the names of a location first. -/
def under (location : Location) (path : String) : String := location.foldr (fun name rest => name ++ "/" ++ rest) path

/-- A relative path, spelled from the root. -/
def absolute (d : Disk) (path : String) : String := "/" ++ under d.home path

theorem names_under {home : Location} (h : ∀ name ∈ home, Path.Plain name) (path : String) :
    Location.names (under home path) = home ++ Location.names path := by
  induction home with
  | nil => rfl
  | cons name home ih =>
    obtain ⟨hname, hhome⟩ := List.forall_mem_cons.1 h
    rw [under, List.foldr_cons, Path.names_append_slash, Path.names_of_plain hname, ← under, ih hhome]
    rfl

theorem names_absolute (h : ∀ name ∈ d.home, Path.Plain name) (path : String) :
    Location.names (d.absolute path) = d.home ++ Location.names path :=
  (Path.names_append_slash "" (under d.home path)).trans (names_under h path)

/-- The way from the root to where relative paths start is always there. -/
theorem foldlM_descend_home (h : ∀ name ∈ d.home, Path.Plain name) {before names : Location}
    (hhome : d.home = before ++ names) : names.foldlM d.descend before = .ok d.home := by
  induction names generalizing before with
  | nil =>
    rw [hhome, List.append_nil, List.foldlM_nil]
    rfl
  | cons name names ih =>
    have hplain := h name (hhome ▸ List.mem_append_right _ List.mem_cons_self)
    have hstep : Location.step before name = before ++ [name] := by
      rw [Location.step, if_neg hplain.ne_dot, if_neg hplain.ne_parent]
    have hnext : d.home = (before ++ [name]) ++ names := by
      rw [hhome, List.append_assoc]
      rfl
    have hdescend : d.descend before name = .ok (before ++ [name]) := by
      rw [descend, hstep, at?, if_pos ⟨names, hnext.symm⟩]
    rw [List.foldlM_cons, hdescend]
    exact ih hnext

theorem getLast?_absolute (hpath : path ≠ "") : (d.absolute path).toList.getLast? = path.toList.getLast? := by
  obtain ⟨c, cs, hcs⟩ := List.exists_cons_of_ne_nil (mt String.toList_eq_nil_iff.1 hpath)
  have hunder : ∀ home, ∃ before, (under home path).toList = before ++ path.toList := by
    intro home
    induction home with
    | nil => exact ⟨[], rfl⟩
    | cons name home ih =>
      obtain ⟨before, hbefore⟩ := ih
      refine ⟨(name ++ "/").toList ++ before, ?_⟩
      rw [under, List.foldr_cons, ← under, String.toList_append, hbefore, List.append_assoc]
  obtain ⟨before, hbefore⟩ := hunder d.home
  rw [absolute, String.toList_append, hbefore, hcs, ← List.append_assoc, List.getLast?_append, List.getLast?_cons,
    Option.some_or]

/-- **A relative path and its absolute spelling lead to the same place.** -/
theorem resolve_absolute (h : ∀ name ∈ d.home, Path.Plain name) (hpath : path ≠ "")
    (hrelative : Location.isAbsolute path = false) : d.resolve (d.absolute path) = d.resolve path := by
  have habsolute : d.start (d.absolute path) = [] := by
    rw [start, absolute, Location.isAbsolute, String.toList_append]
    rfl
  have hne : (d.absolute path).isEmpty = false ∧ path.isEmpty = false := by
    simp only [← Bool.not_eq_true, String.isEmpty_iff]
    refine ⟨fun hnil => ?_, hpath⟩
    rw [absolute, ← String.toList_eq_nil_iff, String.toList_append] at hnil
    exact List.cons_ne_nil _ _ hnil
  obtain ⟨name, hname⟩ := Option.ne_none_iff_exists'.1 (mt List.getLast?_eq_none_iff.1 (Path.names_ne_nil hpath hrelative))
  have hhome : d.home.foldlM d.descend [] = .ok d.home := foldlM_descend_home h rfl
  have hway : (Location.names (d.absolute path)).dropLast.foldlM d.descend [] =
      (Location.names path).dropLast.foldlM d.descend d.home := by
    rw [names_absolute h, List.dropLast_append_of_ne_nil (Path.names_ne_nil hpath hrelative), List.foldlM_append,
      hhome]
    rfl
  have hlast : (Location.names (d.absolute path)).getLast? = some name := by
    rw [names_absolute h, List.getLast?_append, hname, Option.some_or]
  have hstart : d.start path = d.home := by
    rw [start, hrelative]
    rfl
  simp only [resolve, hne.1, hne.2, hlast, hname, habsolute, hstart, hway, getLast?_absolute hpath]

/-- Two paths to different files that are in one directory on every disk: they lead somewhere on the same disks. -/
structure Siblings (path other : String) : Prop where
  together : ∀ d : Disk, (∃ l, d.resolve path = .ok (.named l)) ↔ ∃ l, d.resolve other = .ok (.named l)
  apart : ∀ (d : Disk) (l : Location), d.resolve path = .ok (.named l) → d.resolve other ≠ .ok (.named l)

theorem Siblings.symm {other : String} (h : Siblings path other) : Siblings other path :=
  ⟨fun d => (h.together d).symm, fun d l hl hol => h.apart d l hol hl⟩

/-- **Different names in a directory lead to different files.** -/
theorem siblings_join {directory name other : String} (hname : Path.Plain name) (hother : Path.Plain other)
    (hne : name ≠ other) : Siblings (Path.join directory name) (Path.join directory other) := by
  refine ⟨fun d => ?_, fun d l hl hl' => ?_⟩
  · simp only [resolve_join hname, resolve_join hother]
    exact ⟨fun ⟨_, parent, hparent, _⟩ => ⟨_, parent, hparent, rfl⟩,
      fun ⟨_, parent, hparent, _⟩ => ⟨_, parent, hparent, rfl⟩⟩
  · obtain ⟨parent, -, rfl⟩ := (resolve_join hname).1 hl
    obtain ⟨parent', -, hlocation⟩ := (resolve_join hother).1 hl'
    exact hne (List.singleton_inj.1 (List.append_inj_right' hlocation rfl))

/-! ## Reading and writing -/

theorem read_eq_ok_iff :
    d.read path = .ok bytes ↔ ∃ l, d.resolve path = .ok (.named l) ∧ d.at? l = some (.file bytes) := by
  constructor
  · intro h
    unfold read at h
    split at h
    · cases h
    · split at h <;> cases h
    · next l hl =>
      split at h
      · cases h
      · cases h
      · next hat =>
        cases h
        exact ⟨l, hl, hat⟩
  · rintro ⟨l, hl, hat⟩
    simp only [read, hl, hat]

theorem write_eq_ok_iff : d.write path bytes = .ok after ↔
    ∃ l, d.resolve path = .ok (.named l) ∧ d.at? l ≠ some .directory ∧ after = d.put l (.file bytes) := by
  constructor
  · intro h
    unfold write at h
    split at h
    · cases h
    · cases h
    · next l hl =>
      split at h
      · cases h
      · next hat =>
        cases h
        exact ⟨l, hl, hat, rfl⟩
  · rintro ⟨l, hl, hat, rfl⟩
    simp only [write, hl]

theorem read_congr (hhome : after.home = before.home) (h : ∀ l, after.at? l = before.at? l) (path : String) :
    after.read path = before.read path := by
  have hdescend : after.descend = before.descend := by
    funext l name
    rw [descend, descend, h]
  have hresolve : after.resolve path = before.resolve path := by
    simp only [resolve, start, hdescend, hhome]
  simp only [read, hresolve, hdescend, h]

/-! ## What a change leaves alone -/

/-- Nothing changes but the files that the paths lead to. -/
structure ChangedOnlyAt (before after : Disk) (paths : List String) : Prop where
  home : after.home = before.home
  elsewhere : ∀ location, (∀ path ∈ paths, before.resolve path ≠ .ok (.named location)) →
    after.at? location = before.at? location
  directories : ∀ location, after.at? location = some .directory ↔ before.at? location = some .directory

theorem ok_of_foldlM {f g : Location → String → Except FileError Location} {parent : Location}
    (h : ∀ l name l', f l name = .ok l' → g l name = .ok l') :
    ∀ (names : List String) (l : Location), names.foldlM f l = .ok parent → names.foldlM g l = .ok parent
  | [], _, hf => hf
  | name :: names, l, hf => by
    rw [List.foldlM_cons] at hf ⊢
    cases hstep : f l name with
    | error cause =>
      rw [hstep] at hf
      cases hf
    | ok l' =>
      rw [hstep] at hf
      rw [h l name l' hstep]
      exact ok_of_foldlM h names l' hf

theorem descend_eq_ok_iff {name : String} {l' : Location} :
    d.descend l name = .ok l' ↔ d.at? (l.step name) = some .directory ∧ l.step name = l' := by
  unfold descend
  split
  · next h => simp [h]
  · next h => simp [h]
  · next h => simp [h]

namespace ChangedOnlyAt

variable {paths : List String}

theorem refl (d : Disk) (paths : List String) : d.ChangedOnlyAt d paths :=
  ⟨rfl, fun _ _ => rfl, fun _ => Iff.rfl⟩

theorem descend_eq_ok_iff (h : before.ChangedOnlyAt after paths) (l : Location) (name : String) (l' : Location) :
    after.descend l name = .ok l' ↔ before.descend l name = .ok l' := by
  rw [Disk.descend_eq_ok_iff, Disk.descend_eq_ok_iff, h.directories]

/-- **A path leads where it led before.** -/
theorem resolve_eq_ok_iff (h : before.ChangedOnlyAt after paths) (path : String) (place : Place) :
    after.resolve path = .ok place ↔ before.resolve path = .ok place := by
  have hstart : after.start path = before.start path := by
    rw [start, start, h.home]
  have hparent : ∀ parent, (Location.names path).dropLast.foldlM after.descend (before.start path) = .ok parent ↔
      (Location.names path).dropLast.foldlM before.descend (before.start path) = .ok parent := fun parent =>
    ⟨ok_of_foldlM (fun l name l' => (h.descend_eq_ok_iff l name l').1) _ _,
      ok_of_foldlM (fun l name l' => (h.descend_eq_ok_iff l name l').2) _ _⟩
  rw [Disk.resolve_eq_ok_iff, Disk.resolve_eq_ok_iff, hstart]
  simp only [hparent]

theorem trans {third : Disk} {more : List String} (h : before.ChangedOnlyAt after paths)
    (h' : after.ChangedOnlyAt third more) : before.ChangedOnlyAt third (paths ++ more) := by
  refine ⟨h'.home.trans h.home, fun location hl => ?_,
    fun location => (h'.directories location).trans (h.directories location)⟩
  rw [h'.elsewhere location, h.elsewhere location]
  · exact fun path hp => hl path (List.mem_append_left _ hp)
  · intro path hp hr
    exact hl path (List.mem_append_right _ hp) ((h.resolve_eq_ok_iff path _).1 hr)

/-- **A path to no changed file reads as it read before.** -/
theorem read_eq_ok_iff (h : before.ChangedOnlyAt after paths)
    (hpath : ∀ changed ∈ paths, ∀ l, before.resolve path = .ok (.named l) → before.resolve changed ≠ .ok (.named l)) :
    after.read path = .ok bytes ↔ before.read path = .ok bytes := by
  rw [Disk.read_eq_ok_iff, Disk.read_eq_ok_iff]
  refine exists_congr fun l => ?_
  rw [h.resolve_eq_ok_iff]
  refine and_congr_right fun hl => ?_
  rw [h.elsewhere l fun changed hc => hpath changed hc l hl]

/-- **A sibling of the changed files reads as it read before**, down to the reason where it cannot be read. -/
theorem read_eq (h : before.ChangedOnlyAt after paths) (hpath : ∀ changed ∈ paths, Siblings path changed) :
    after.read path = before.read path := by
  by_cases hnamed : ∃ l, before.resolve path = .ok (.named l)
  · obtain ⟨l, hl⟩ := hnamed
    have hat : after.at? l = before.at? l := h.elsewhere l fun changed hc => (hpath changed hc).apart before l hl
    simp only [read, hl, (h.resolve_eq_ok_iff path _).2 hl, hat]
  · -- The directory is not there, so none of the changed paths leads to a file either.
    have hsame : ∀ l, after.at? l = before.at? l := fun l => h.elsewhere l fun changed hc hl =>
      hnamed (((hpath changed hc).together before).2 ⟨l, hl⟩)
    exact read_congr h.home hsame path

end ChangedOnlyAt

/-- **A write changes the file that its path leads to, and nothing else.** -/
theorem changedOnlyAt_of_write (h : d.write path bytes = .ok after) : d.ChangedOnlyAt after [path] := by
  obtain ⟨l, hl, hat, rfl⟩ := write_eq_ok_iff.1 h
  have helse : ∀ location, location ≠ l → (d.put l (.file bytes)).at? location = d.at? location :=
    fun location hne => at?_put_of_ne hne _
  refine ⟨rfl, fun location hlocation => helse location ?_, fun location => ?_⟩
  · rintro rfl
    exact hlocation path List.mem_cons_self hl
  · by_cases hlocation : location = l
    · subst hlocation
      rw [at?_put_self hat]
      simp [hat]
    · rw [helse location hlocation]

/-- **A file that was written holds what was written to it.** -/
theorem read_of_write (h : d.write path bytes = .ok after) : after.read path = .ok bytes := by
  have hsame := (changedOnlyAt_of_write h).resolve_eq_ok_iff path
  obtain ⟨l, hl, hat, rfl⟩ := write_eq_ok_iff.1 h
  exact read_eq_ok_iff.2 ⟨l, (hsame _).2 hl, at?_put_self hat _⟩

end Disk
end Stencil
