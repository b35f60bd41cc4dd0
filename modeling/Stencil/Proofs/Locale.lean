import Mathlib
import Stencil.Locale
import Stencil.Proofs.Text.Split
/-!
# Locale — the grammar of a locale, and what does not matter in it

A locale that names a script is a language, at most three subtags of three letters, the script, and anything behind it
(`Scripted.Reads`).  There is at most one such reading, and it is the one that the scan finds (`script?_eq_some_iff`), so
the direction is what the grammar says (`localeDirection_grammar`).  What `Alike` locales differ in does not matter for it.
-/
namespace Stencil
namespace Locale

def IsLetter (c : Char) : Prop :=
  ('a'.toNat ≤ c.toNat ∧ c.toNat ≤ 'z'.toNat) ∨ ('A'.toNat ≤ c.toNat ∧ c.toNat ≤ 'Z'.toNat)

/-- A subtag of `n` ASCII letters. -/
def Letters (n : Nat) (subtag : List Char) : Prop := subtag.length = n ∧ ∀ c ∈ subtag, IsLetter c

/-- The parts of a locale that names a script. -/
structure Scripted where
  language : List Char
  extended : List (List Char)
  script : List Char
  rest : List (List Char)

/-- **The grammar of a locale that names a script.** -/
structure Scripted.Reads (p : Scripted) (tags : List (List Char)) : Prop where
  tags_eq : tags = p.language :: (p.extended ++ p.script :: p.rest)
  extended_le : p.extended.length ≤ 3
  extended : ∀ tag ∈ p.extended, Letters 3 tag
  script : Letters 4 p.script

/-- A script that is written from right to left, or no script and such a language. -/
def NamesRtl (tags : List (List Char)) : Prop :=
  (∃ p : Scripted, p.Reads tags ∧ String.ofList p.script ∈ rtlScripts) ∨
    ((∀ p : Scripted, ¬ p.Reads tags) ∧ ∃ language ∈ tags.head?, String.ofList language ∈ rtlLanguages)

/-! ## Scripts -/

theorem isLetters_iff {n : Nat} {subtag : List Char} : isLetters n subtag = true ↔ Letters n subtag := by
  have hletter : ∀ c : Char, c.isAlpha = true ↔ IsLetter c := by
    intro c
    simp only [Char.isAlpha, Char.isUpper, Char.isLower, IsLetter, Bool.or_eq_true, Bool.and_eq_true, decide_eq_true_eq,
      ge_iff_le, UInt32.le_iff_toNat_le]
    exact or_comm
  simp only [isLetters, Letters, Bool.and_eq_true, beq_iff_eq, List.all_eq_true, hletter]

theorem dropExtended_of_three {subtag : List Char} (h : Letters 3 subtag) (n : Nat) (rest : List (List Char)) :
    dropExtended (n + 1) (subtag :: rest) = dropExtended n rest := by
  rw [dropExtended, if_pos (isLetters_iff.2 h)]

theorem dropExtended_of_not_three {subtag : List Char} (h : ¬ Letters 3 subtag) (n : Nat) (rest : List (List Char)) :
    dropExtended n (subtag :: rest) = subtag :: rest := by
  cases n with
  | zero => rfl
  | succ n => rw [dropExtended, if_neg (mt isLetters_iff.1 h)]

/-- **The scan drops a whole run of extended subtags.** -/
theorem dropExtended_append : ∀ {n : Nat} {run rest : List (List Char)}, run.length ≤ n →
    (∀ tag ∈ run, Letters 3 tag) → (∀ tag ∈ rest.head?, ¬ Letters 3 tag) → dropExtended n (run ++ rest) = rest
  | n, [], [], _, _, _ => by cases n <;> rfl
  | n, [], tag :: rest, _, _, hrest => dropExtended_of_not_three (hrest tag rfl) n rest
  | n + 1, tag :: run, rest, hlen, hrun, hrest => by
    rw [List.cons_append, dropExtended_of_three (hrun tag List.mem_cons_self)]
    exact dropExtended_append (Nat.le_of_succ_le_succ hlen) (fun other ho => hrun other (List.mem_cons_of_mem tag ho)) hrest

theorem exists_run_dropExtended : ∀ (n : Nat) (tags : List (List Char)),
    ∃ run, tags = run ++ dropExtended n tags ∧ run.length ≤ n ∧ ∀ tag ∈ run, Letters 3 tag
  | 0, tags => ⟨[], rfl, Nat.le_refl 0, fun _ h => nomatch h⟩
  | n + 1, [] => ⟨[], rfl, Nat.zero_le _, fun _ h => nomatch h⟩
  | n + 1, tag :: rest => by
    by_cases h : Letters 3 tag
    · obtain ⟨run, hrest, hlen, hrun⟩ := exists_run_dropExtended n rest
      refine ⟨tag :: run, ?_, Nat.succ_le_succ hlen, List.forall_mem_cons.2 ⟨h, hrun⟩⟩
      rw [dropExtended_of_three h, List.cons_append, ← hrest]
    · exact ⟨[], (dropExtended_of_not_three h _ rest).symm, Nat.zero_le _, fun _ hm => nomatch hm⟩

theorem Letters.not_three {subtag : List Char} (h : Letters 4 subtag) : ¬ Letters 3 subtag := by
  intro h3
  have hlen := h.1
  rw [h3.1] at hlen
  omega

theorem Scripted.Reads.dropExtended_eq {p : Scripted} {language : List Char} {rest : List (List Char)}
    (h : p.Reads (language :: rest)) : dropExtended 3 rest = p.script :: p.rest := by
  obtain ⟨htags, hlen, hextended, hscript⟩ := h
  rw [(List.cons.inj htags).2]
  refine dropExtended_append hlen hextended fun tag ht => ?_
  cases ht
  exact hscript.not_three

/-- **The script that the scan finds is the script of the grammar.** -/
theorem script?_eq_some_iff {language : List Char} {rest : List (List Char)} {script : List Char} :
    script? rest = some script ↔ ∃ p : Scripted, p.Reads (language :: rest) ∧ p.script = script := by
  constructor
  · intro h
    obtain ⟨hhead, hfour⟩ := Option.filter_eq_some_iff.1 h
    obtain ⟨after, hafter⟩ := List.head?_eq_some_iff.1 hhead
    obtain ⟨run, hrest, hlen, hrun⟩ := exists_run_dropExtended 3 rest
    rw [hafter] at hrest
    exact ⟨⟨language, run, script, after⟩, ⟨by rw [hrest], hlen, hrun, isLetters_iff.1 hfour⟩, rfl⟩
  · rintro ⟨p, h, rfl⟩
    rw [script?, h.dropExtended_eq, List.head?_cons, Option.filter_some, isLetters_iff.2 h.script]
    rfl

/-- **A locale can be read in one way at most.** -/
theorem Scripted.Reads.unique {p q : Scripted} {tags : List (List Char)} (hp : p.Reads tags) (hq : q.Reads tags) :
    p = q := by
  cases tags with
  | nil => cases hp.tags_eq
  | cons language rest =>
    obtain ⟨hscript, hrest⟩ := List.cons.inj (hp.dropExtended_eq.symm.trans hq.dropExtended_eq)
    obtain ⟨hlanguage, htags⟩ := List.cons.inj (hp.tags_eq.symm.trans hq.tags_eq)
    rw [hscript, hrest] at htags
    have hextended := List.append_cancel_right htags
    obtain ⟨_, _, _, _⟩ := p
    obtain ⟨_, _, _, _⟩ := q
    simp only at hlanguage hextended hscript hrest
    rw [hlanguage, hextended, hscript, hrest]

theorem isRtl_iff {language : List Char} {rest : List (List Char)} :
    isRtl language rest = true ↔ NamesRtl (language :: rest) := by
  unfold isRtl NamesRtl
  cases hs : script? rest with
  | some script =>
    have hscript : ∃ p : Scripted, p.Reads (language :: rest) ∧ p.script = script := script?_eq_some_iff.1 hs
    obtain ⟨p, hp, rfl⟩ := hscript
    constructor
    · intro h
      exact .inl ⟨p, hp, by simpa using h⟩
    · rintro (⟨q, hq, h⟩ | ⟨hnone, -⟩)
      · rw [← hq.unique hp]
        simpa using h
      · exact absurd hp (hnone p)
  | none =>
    have hnone : ∀ p : Scripted, ¬ p.Reads (language :: rest) := by
      intro p hp
      rw [script?_eq_some_iff.2 ⟨p, hp, rfl⟩] at hs
      cases hs
    constructor
    · intro h
      exact .inr ⟨hnone, language, rfl, by simpa using h⟩
    · rintro (⟨p, hp, -⟩ | ⟨-, language', hl, h⟩)
      · exact absurd hp (hnone p)
      · cases hl
        simpa using h

theorem direction_eq_rtl_iff (tags : List (List Char)) : direction tags = some .rtl ↔ NamesRtl tags := by
  cases tags with
  | nil =>
    refine ⟨fun h => (nomatch h), ?_⟩
    rintro (⟨p, hp, -⟩ | ⟨-, language, hl, -⟩)
    · cases hp.tags_eq
    · cases hl
  | cons language rest =>
    rw [← isRtl_iff, direction]
    cases isRtl language rest <;> simp

/-! ## Subtags -/

theorem subtags_append {sep : Char} (hsep : isSeparator sep = true) (s t : List Char) :
    subtags (s ++ sep :: t) = subtags s ++ subtags t := by
  rw [subtags, Text.pieces_append_cons hsep, List.filter_append, List.map_append]
  rfl

theorem subtags_separators_append {s : List Char} : ∀ {seps : List Char}, (∀ c ∈ seps, isSeparator c = true) →
    subtags (seps ++ s) = subtags s
  | [], _ => rfl
  | sep :: seps, h => by
    have hfirst := subtags_append (h sep List.mem_cons_self) [] (seps ++ s)
    have hrest := subtags_separators_append (s := s) fun c hc => h c (List.mem_cons_of_mem sep hc)
    rw [List.nil_append, hrest] at hfirst
    exact hfirst

theorem subtags_append_separators {s seps : List Char} (h : ∀ c ∈ seps, isSeparator c = true) :
    subtags (s ++ seps) = subtags s := by
  cases seps with
  | nil => rw [List.append_nil]
  | cons sep seps =>
    have hrest := subtags_separators_append (s := []) fun c hc => h c (List.mem_cons_of_mem sep hc)
    rw [List.append_nil] at hrest
    rw [subtags_append (h sep List.mem_cons_self), hrest]
    exact List.append_nil _

theorem subtags_between {s t seps : List Char} (hne : seps ≠ []) (h : ∀ c ∈ seps, isSeparator c = true) :
    subtags (s ++ seps ++ t) = subtags s ++ subtags t := by
  obtain ⟨sep, seps, rfl⟩ := List.exists_cons_of_ne_nil hne
  have hrest := subtags_separators_append (s := t) fun c hc => h c (List.mem_cons_of_mem sep hc)
  rw [List.append_assoc, List.cons_append, subtags_append (h sep List.mem_cons_self), hrest]

theorem isSeparator_toLower (c : Char) : isSeparator c.toLower = isSeparator c := by
  by_cases hc : c.isUpper = true
  · have hupper : ∀ d : Char, d.isAlpha = true → isSeparator d = false := by
      intro d hd
      rw [isSeparator, Bool.or_eq_false_iff, beq_eq_false_iff_ne, beq_eq_false_iff_ne]
      constructor <;>
      · rintro rfl
        exact absurd hd (by decide)
    have halpha : c.isAlpha = true := by simp [Char.isAlpha, hc]
    rw [hupper c halpha, hupper c.toLower (by rw [Char.isAlpha_toLower_eq_isAlpha, halpha])]
  · rw [Char.toLower_eq_of_not_isUpper hc]

theorem subtags_map_toLower (s : List Char) : subtags (s.map Char.toLower) = subtags s := by
  rw [subtags, subtags, Text.pieces_map isSeparator_toLower, List.filter_map, List.map_map]
  have hempty : (fun p : List Char => !p.isEmpty) ∘ List.map Char.toLower = fun p => !p.isEmpty := by
    funext p
    cases p <;> rfl
  have htwice : List.map Char.toLower ∘ List.map Char.toLower = List.map Char.toLower := by
    funext p
    simp
  rw [hempty, htwice]

/-! ## Locales that are alike -/

/-- **Locales that differ in what does not matter**: in case; in which separators stand between subtags, and how many of
them, or at either end; in subtags of three letters behind the language, of which there are at most three; in what follows
from a subtag of one character on. -/
inductive Alike : List Char → List Char → Prop
  | case {s s' : List Char} : s.map Char.toLower = s'.map Char.toLower → Alike s s'
  | between {s t seps seps' : List Char} : seps ≠ [] → seps' ≠ [] → (∀ c ∈ seps, c = '-' ∨ c = '_') →
      (∀ c ∈ seps', c = '-' ∨ c = '_') → Alike (s ++ seps ++ t) (s ++ seps' ++ t)
  | leading {s seps : List Char} : (∀ c ∈ seps, c = '-' ∨ c = '_') → Alike s (seps ++ s)
  | trailing {s seps : List Char} : (∀ c ∈ seps, c = '-' ∨ c = '_') → Alike s (s ++ seps)
  | extended {s s' : List Char} {language : List Char} {before added after rest : List (List Char)} :
      subtags s = language :: (before ++ after ++ rest) → subtags s' = language :: (before ++ added ++ after ++ rest) →
      (∀ tag ∈ before ++ added ++ after, Letters 3 tag) → (before ++ added ++ after).length ≤ 3 →
      (∀ tag ∈ rest.head?, ¬ Letters 3 tag) → Alike s s'
  | tail {s s' : List Char} {singleton : Char} {rest : List (List Char)} : subtags s ≠ [] →
      subtags s' = subtags s ++ [singleton] :: rest → Alike s s'
  | symm {s s' : List Char} : Alike s s' → Alike s' s
  | trans {s s' s'' : List Char} : Alike s s' → Alike s' s'' → Alike s s''

theorem dropExtended_append_cons {subtag : List Char} (h : ¬ Letters 3 subtag) (after : List (List Char)) :
    ∀ (n : Nat) (rest : List (List Char)),
      dropExtended n (rest ++ subtag :: after) = dropExtended n rest ++ subtag :: after
  | 0, _ => rfl
  | n + 1, [] => dropExtended_of_not_three h (n + 1) after
  | n + 1, tag :: rest => by
    by_cases ht : Letters 3 tag
    · rw [List.cons_append, dropExtended_of_three ht, dropExtended_of_three ht, dropExtended_append_cons h after n rest]
    · rw [List.cons_append, dropExtended_of_not_three ht, dropExtended_of_not_three ht, List.cons_append]

/-- A subtag of one character is no script and ends the search for one. -/
theorem script?_append_singleton (c : Char) (after rest : List (List Char)) :
    script? (rest ++ [c] :: after) = script? rest := by
  have hthree : ¬ Letters 3 [c] := by simp [Letters]
  have hfour : isLetters 4 [c] = false := rfl
  rw [script?, script?, dropExtended_append_cons hthree]
  cases dropExtended 3 rest with
  | nil => simp [Option.filter, hfour]
  | cons tag tags => rfl

theorem direction_append_singleton (c : Char) (after : List (List Char)) {tags : List (List Char)} (h : tags ≠ []) :
    direction (tags ++ [c] :: after) = direction tags := by
  obtain ⟨language, rest, rfl⟩ := List.exists_cons_of_ne_nil h
  rw [List.cons_append, direction, direction, isRtl, isRtl, script?_append_singleton]

theorem direction_run {language : List Char} {run rest : List (List Char)} (hlen : run.length ≤ 3)
    (hrun : ∀ tag ∈ run, Letters 3 tag) (hrest : ∀ tag ∈ rest.head?, ¬ Letters 3 tag) :
    direction (language :: (run ++ rest)) = direction (language :: rest) := by
  have hnone : dropExtended 3 ([] ++ rest) = rest := dropExtended_append (Nat.zero_le 3) (by simp) hrest
  rw [List.nil_append] at hnone
  rw [direction, direction, isRtl, isRtl, script?, script?, dropExtended_append hlen hrun hrest, hnone]

theorem Alike.direction_eq {s s' : List Char} (h : Alike s s') : direction (subtags s) = direction (subtags s') := by
  have hseparator : ∀ {seps : List Char}, (∀ c ∈ seps, c = '-' ∨ c = '_') → ∀ c ∈ seps, isSeparator c = true := by
    intro seps hseps c hc
    simpa [isSeparator] using hseps c hc
  induction h with
  | case hcase => rw [← subtags_map_toLower, hcase, subtags_map_toLower]
  | between hne hne' hseps hseps' => rw [subtags_between hne (hseparator hseps), subtags_between hne' (hseparator hseps')]
  | leading hseps => rw [subtags_separators_append (hseparator hseps)]
  | trailing hseps => rw [subtags_append_separators (hseparator hseps)]
  | @extended s s' language before added after rest hs hs' hrun hlen hrest =>
    have hold : (before ++ after).length ≤ 3 := by
      simp only [List.length_append] at hlen ⊢
      omega
    have hold' : ∀ tag ∈ before ++ after, Letters 3 tag := by
      intro tag ht
      refine hrun tag ?_
      rcases List.mem_append.1 ht with ht | ht <;> simp [ht]
    -- The scan drops either run as a whole, since neither is longer than three.
    rw [hs, hs', direction_run hold hold' hrest, direction_run hlen hrun hrest]
  | tail hne hs' => rw [hs', direction_append_singleton _ _ hne]
  | symm _ ih => exact ih.symm
  | trans _ _ ih ih' => exact ih.trans ih'

/-- **The direction of a locale.**  Its subtags are what stands between hyphens and underscores, in lower case and without
the empty pieces.  There is no direction where there are none; else the script decides, of which the grammar knows one at
most, and where there is no script the language.  Locales that are alike have the same direction. -/
theorem localeDirection_grammar :
    (∀ locale : String, ∃ tags, tags = ((locale.toList.splitOnP fun c => c = '-' ∨ c = '_').filter (· ≠ [])).map
        (List.map Char.toLower) ∧
      (localeDirection locale = none ↔ tags = []) ∧
      (localeDirection locale = some .rtl ↔ NamesRtl tags) ∧
      (∀ p q : Scripted, p.Reads tags → q.Reads tags → p = q)) ∧
    (∀ locale locale' : String, Alike locale.toList locale'.toList →
      localeDirection locale = localeDirection locale') := by
  refine ⟨fun locale => ⟨subtags locale.toList, ?_, direction_eq_none_iff _, direction_eq_rtl_iff _,
    fun p q hp hq => hp.unique hq⟩, fun locale locale' h => h.direction_eq⟩
  have hsep : (fun c => decide (c = '-' ∨ c = '_')) = isSeparator := by
    funext c
    rw [Bool.decide_or]
    rfl
  have hempty : (fun p : List Char => decide (p ≠ [])) = fun p => !p.isEmpty := by
    funext p
    cases p <;> rfl
  rw [hsep, hempty, ← Text.pieces_eq_splitOnP]
  rfl

/-- Arabic is written from right to left, in whatever case and with whatever extension, unless its script says otherwise. -/
theorem localeDirection_grammar_arabic : Alike "ar".toList "AR__u-nu-latn".toList ∧
    localeDirection "ar" = some .rtl ∧ localeDirection "AR__u-nu-latn" = some .rtl ∧
    localeDirection "ar-Latn" = some .ltr ∧ localeDirection "zh-cmn_Arab-CN" = some .rtl ∧ localeDirection "-" = none := by
  have hcase : Alike "ar".toList "AR".toList := .case (by decide)
  have htail : Alike "AR".toList "AR__u-nu-latn".toList :=
    @Alike.tail _ _ 'u' ["nu".toList, "latn".toList] (by decide) (by decide)
  have hsame := localeDirection_grammar.2 _ _ (hcase.trans htail)
  have harabic : localeDirection "ar" = some .rtl := by decide +kernel
  exact ⟨hcase.trans htail, harabic, hsame.symm.trans harabic, by decide +kernel, by decide +kernel, by decide +kernel⟩

end Locale
end Stencil
