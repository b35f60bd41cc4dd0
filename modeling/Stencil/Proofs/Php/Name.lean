import Mathlib.Data.List.Infix
import Stencil.Php.Render
import Stencil.Proofs.Php.Token
import Stencil.Proofs.Text.Split
/-!
# Name — the names in generated code are words, and variables are told apart

Functions and variables are named by word characters.  An external variable keeps its message id apart from every other:
between two underscores stands the number of one character, and outside them every character stands for itself, so
that the id can be read back (`readId_flatMap_idChar`).
-/
namespace Stencil
namespace Php

def hexValue (c : Char) : Nat := if c.isDigit then c.toNat - 48 else c.toNat - 87

theorem hexValue_digitChar : ∀ d < 16, hexValue (Nat.digitChar d) = d ∧ (Nat.digitChar d).isAlphanum = true := by
  decide

theorem eq_digitChar_of_mem_toDigits {c : Char} (n : Nat) : c ∈ Nat.toDigits 16 n → ∃ d < 16, c = Nat.digitChar d := by
  induction n using Nat.strongRecOn with
  | ind n ih =>
    intro h
    rw [Nat.toDigits_eq_if (by decide)] at h
    split at h
    · next hn =>
      rw [List.mem_singleton] at h
      exact ⟨n, hn, h⟩
    · rcases List.mem_append.1 h with h | h
      · exact ih (n / 16) (by omega) h
      · rw [List.mem_singleton] at h
        exact ⟨n % 16, Nat.mod_lt _ (by decide), h⟩

theorem isAlphanum_of_mem_toDigits {c : Char} {n : Nat} (h : c ∈ Nat.toDigits 16 n) : c.isAlphanum = true := by
  obtain ⟨d, hd, rfl⟩ := eq_digitChar_of_mem_toDigits n h
  exact (hexValue_digitChar d hd).2

def readDigits (value : Nat) (digits : List Char) : Nat := digits.foldl (fun v c => 16 * v + hexValue c) value

theorem readDigits_toDigits (n : Nat) : readDigits 0 (Nat.toDigits 16 n) = n := by
  induction n using Nat.strongRecOn with
  | ind n ih =>
    rw [Nat.toDigits_eq_if (by decide)]
    split
    · next hn =>
      rw [readDigits, List.foldl_cons, (hexValue_digitChar n hn).1, List.foldl_nil]
      omega
    · have hr := (hexValue_digitChar (n % 16) (Nat.mod_lt _ (by decide))).1
      have hq := ih (n / 16) (by omega)
      unfold readDigits at hq ⊢
      rw [List.foldl_append, hq, List.foldl_cons, hr, List.foldl_nil]
      omega

/-- The id that the characters of an external variable stand for; `code` is the number between two underscores. -/
def readId (code : Option Nat) : List Char → Option (List Char)
  | [] => if code = none then some [] else none
  | c :: cs =>
    match code with
    | none => if c = '_' then readId (some 0) cs else (readId none cs).map (c :: ·)
    | some n => if c = '_' then (readId none cs).map (Char.ofNat n :: ·) else readId (some (16 * n + hexValue c)) cs

theorem readId_digits (rest : List Char) : ∀ (digits : List Char) (n : Nat), (∀ c ∈ digits, c.isAlphanum = true) →
    readId (some n) (digits ++ '_' :: rest) = (readId none rest).map (Char.ofNat (readDigits n digits) :: ·)
  | [], _, _ => rfl
  | c :: cs, n, h => by
    have hc : c ≠ '_' := by
      rintro rfl
      exact absurd (h _ List.mem_cons_self) (by decide)
    rw [List.cons_append, readId, if_neg hc, readId_digits rest cs _ fun d hd => h d (List.mem_cons_of_mem _ hd)]
    rfl

theorem readId_idChar (c : Char) (rest : List Char) :
    readId none (idChar c ++ rest) = (readId none rest).map (c :: ·) := by
  unfold idChar
  split
  · next hc =>
    have hne : c ≠ '_' := by
      rintro rfl
      exact absurd hc (by decide)
    rw [List.singleton_append, readId, if_neg hne]
  · rw [List.cons_append, List.append_assoc, List.singleton_append, readId, if_pos rfl,
      readId_digits rest _ 0 fun d hd => isAlphanum_of_mem_toDigits hd, readDigits_toDigits, Char.ofNat_toNat]

theorem readId_flatMap_idChar (id : List Char) : readId none (id.flatMap idChar) = some id := by
  induction id with
  | nil => rfl
  | cons c id ih => rw [List.flatMap_cons, readId_idChar, ih, Option.map_some]

theorem isWordChar_of_mem_idChar {c d : Char} (h : d ∈ idChar c) : isWordChar d = true := by
  unfold idChar at h
  split at h
  · next hc =>
    rw [List.mem_singleton] at h
    rw [h, isWordChar, hc, Bool.true_or]
  · rcases List.mem_cons.1 h with rfl | h
    · rfl
    · rcases List.mem_append.1 h with h | h
      · rw [isWordChar, isAlphanum_of_mem_toDigits h, Bool.true_or]
      · rw [List.mem_singleton.1 h]
        rfl

theorem isWordChar_of_mem_identifier {s : List Char} {c : Char} (h : c ∈ identifier s) : isWordChar c = true := by
  obtain ⟨d, -, rfl⟩ := List.mem_map.1 h
  split
  · next hd => exact hd
  · rfl

/-- **A function is named by word characters alone.** -/
theorem isWordChar_of_mem_functionName {package template : String} {c : Char}
    (h : c ∈ (functionName package template).toList) : isWordChar c = true := by
  rw [functionName, String.toList_ofList] at h
  rcases Text.mem_intercalate h with h | ⟨part, hpart, hc⟩
  · rw [List.mem_singleton.1 h]
    rfl
  · obtain ⟨s, -, rfl⟩ := List.mem_map.1 hpart
    exact isWordChar_of_mem_identifier hc

/-- The name of a variable, without the sign in front of it. -/
def Variable.name : Variable → String
  | .unnamed number => "MSG_UNNAMED_" ++ toString number
  | .external id => "MSG_EXTERNAL_" ++ String.ofList (id.toList.flatMap idChar)

theorem Variable.render_eq (v : Variable) : v.render = "$" ++ v.name := by
  cases v with
  | unnamed number =>
    rw [Variable.render, Variable.name, unnamedName, ← String.append_assoc]
    rfl
  | external id =>
    rw [Variable.render, Variable.name, externalName, ← String.append_assoc]
    rfl

theorem Variable.toList_name_unnamed (number : Nat) :
    (Variable.unnamed number).name.toList = "MSG_UNNAMED_".toList ++ Nat.toDigits 10 number := by
  rw [name, String.toList_append, Nat.toString_eq_ofList_toDigits, String.toList_ofList (l := Nat.toDigits 10 number)]

theorem Variable.toList_name_external (id : String) :
    (Variable.external id).name.toList = "MSG_EXTERNAL_".toList ++ id.toList.flatMap idChar := by
  rw [name, String.toList_append, String.toList_ofList (l := id.toList.flatMap idChar)]

theorem Variable.isWordChar_of_mem_name {v : Variable} {c : Char} (h : c ∈ v.name.toList) : isWordChar c = true := by
  have fixed : ∀ c ∈ "MSG_UNNAMED_".toList ++ "MSG_EXTERNAL_".toList, isWordChar c = true := List.all_eq_true.1 rfl
  cases v with
  | unnamed number =>
    rw [toList_name_unnamed, List.mem_append] at h
    rcases h with h | h
    · exact fixed c (List.mem_append_left _ h)
    · have hd := Nat.isDigit_of_mem_toDigits (by decide) (by decide) h
      rw [isWordChar, Char.isAlphanum, hd, Bool.or_true, Bool.true_or]
  | external id =>
    rw [toList_name_external, List.mem_append] at h
    rcases h with h | h
    · exact fixed c (List.mem_append_right _ h)
    · obtain ⟨d, -, hd⟩ := List.mem_flatMap.1 h
      exact isWordChar_of_mem_idChar hd

/-- **Different variables have different names.** -/
theorem Variable.name_injective {v w : Variable} (h : v.name = w.name) : v = w := by
  have hl : v.name.toList = w.name.toList := by rw [h]
  cases v with
  | unnamed m =>
    cases w with
    | unnamed n =>
      rw [toList_name_unnamed, toList_name_unnamed] at hl
      rw [← Nat.ofDigitChars_ten_toDigits (n := m), List.append_cancel_left hl, Nat.ofDigitChars_ten_toDigits]
    | external id =>
      rw [toList_name_unnamed, toList_name_external] at hl
      have h4 : some 'U' = some 'E' := congrArg (fun l => l[4]?) hl
      exact absurd h4 (by decide)
  | external id =>
    cases w with
    | unnamed n =>
      rw [toList_name_unnamed, toList_name_external] at hl
      have h4 : some 'E' = some 'U' := congrArg (fun l => l[4]?) hl
      exact absurd h4 (by decide)
    | external id' =>
      rw [toList_name_external, toList_name_external] at hl
      have hd := congrArg (readId none) (List.append_cancel_left hl)
      rw [readId_flatMap_idChar, readId_flatMap_idChar, Option.some.injEq, String.toList_inj] at hd
      rw [hd]

theorem Variable.render_injective {v w : Variable} (h : v.render = w.render) : v = w := by
  rw [render_eq, render_eq, ← String.toList_inj, String.toList_append, String.toList_append] at h
  exact name_injective (String.toList_inj.1 (List.append_cancel_left h))

/-! ## External messages -/

/-- The message id that a variable is named for. -/
def externalId? (name : String) : Option String :=
  ("$MSG_EXTERNAL_".toList.isPrefixOf? name.toList).bind fun written => (readId none written).map String.ofList

theorem externalId?_externalName (id : String) : externalId? (externalName id) = some id := by
  have hname : "$MSG_EXTERNAL_".toList.isPrefixOf? (externalName id).toList = some (id.toList.flatMap idChar) := by
    rw [List.isPrefixOf?_eq_some_iff_append_eq, externalName, String.toList_append,
      String.toList_ofList (l := id.toList.flatMap idChar)]
  rw [externalId?, hname, Option.bind_some, readId_flatMap_idChar, Option.map_some, String.ofList_toList]

/-- **Every message id has a variable of its own**: it is read back from the name, different ids have different names, and
behind what all names begin with there is nothing but letters, digits and underscores. -/
theorem externalName_decodes :
    (∀ id, externalId? (externalName id) = some id) ∧
      (∀ id id', externalName id = externalName id' → id = id') ∧
      ∀ id, ∃ written, externalName id = "$MSG_EXTERNAL_" ++ written ∧ ∀ c ∈ written.toList, isWordChar c = true := by
  refine ⟨externalId?_externalName, fun id id' h => ?_, fun id => ⟨_, rfl, fun c hc => ?_⟩⟩
  · have hread := congrArg externalId? h
    rwa [externalId?_externalName, externalId?_externalName, Option.some.injEq] at hread
  · rw [String.toList_ofList] at hc
    obtain ⟨d, -, hd⟩ := List.mem_flatMap.1 hc
    exact isWordChar_of_mem_idChar hd

/-- The id that looks like the name of another, and one outside ASCII. -/
theorem externalName_decodes_lookalike : externalName "a-b" = "$MSG_EXTERNAL_a_2d_b" ∧
    externalName "a_2d_b" ≠ externalName "a-b" ∧ externalId? "$MSG_EXTERNAL_a_2d_b" = some "a-b" ∧
      externalId? "$MSG_EXTERNAL__1f600__e9_" = some "😀é" := by
  obtain ⟨hread, hinjective, -⟩ := externalName_decodes
  have hdash : externalName "a-b" = "$MSG_EXTERNAL_a_2d_b" := by decide
  have hface : externalName "😀é" = "$MSG_EXTERNAL__1f600__e9_" := by decide
  exact ⟨hdash, fun h => absurd (hinjective _ _ h) (by decide), hdash ▸ hread "a-b", hface ▸ hread "😀é"⟩

end Php
end Stencil
