import Stencil.Text.Split
/-!
# Split — pieces of a text put together again

What lies before a separator and what lies behind it are cut apart on their own (`pieces_append_cons`), and neither
cutting nor joining makes a character up.  Where a text has an empty piece is seen at its separators
(`nil_mem_splitOn_iff`).
-/
namespace Stencil
namespace Text

theorem pieces_eq_splitOnP (sep : Char → Bool) (s : List Char) : pieces sep s = s.splitOnP sep := by
  induction s with
  | nil => rfl
  | cons c s ih =>
    rw [pieces, List.splitOnP_cons_eq_if_modifyHead, ← ih]
    cases hp : pieces sep s with
    | nil => exact absurd hp (pieces_ne_nil sep s)
    | cons p ps => rfl

theorem pieces_append_cons {sep : Char → Bool} {c : Char} (hc : sep c = true) (s t : List Char) :
    pieces sep (s ++ c :: t) = pieces sep s ++ pieces sep t := by
  rw [pieces_eq_splitOnP, pieces_eq_splitOnP, pieces_eq_splitOnP, List.splitOnP_append_cons s t hc]

theorem pieces_eq_singleton {sep : Char → Bool} {s : List Char} (h : ∀ c ∈ s, sep c = false) : pieces sep s = [s] := by
  rw [pieces_eq_splitOnP, List.splitOnP_eq_singleton h]

theorem pieces_map {sep : Char → Bool} {g : Char → Char} (hg : ∀ c, sep (g c) = sep c) : ∀ s : List Char,
    pieces sep (s.map g) = (pieces sep s).map (List.map g)
  | [] => rfl
  | c :: s => by
    rw [List.map_cons, pieces, pieces, hg, pieces_map hg s]
    by_cases hc : sep c = true
    · rw [if_pos hc, if_pos hc, List.map_cons, List.map_nil]
    · rw [if_neg hc, if_neg hc]
      cases pieces sep s <;> rfl

theorem mem_of_mem_pieces {sep : Char → Bool} {c : Char} : ∀ {s p : List Char}, p ∈ pieces sep s → c ∈ p → c ∈ s
  | [], p, hp, hc => by
    rw [pieces, List.mem_singleton] at hp
    exact hp ▸ hc
  | d :: s, p, hp, hc => by
    unfold pieces at hp
    split at hp
    · rcases List.mem_cons.1 hp with rfl | hp
      · cases hc
      · exact List.mem_cons_of_mem d (mem_of_mem_pieces hp hc)
    · split at hp
      · next hs => exact absurd hs (pieces_ne_nil sep s)
      · next q qs hs =>
        rcases List.mem_cons.1 hp with rfl | hp
        · rcases List.mem_cons.1 hc with rfl | hc
          · exact List.mem_cons_self
          · exact List.mem_cons_of_mem d (mem_of_mem_pieces (hs ▸ List.mem_cons_self) hc)
        · exact List.mem_cons_of_mem d (mem_of_mem_pieces (hs ▸ List.mem_cons_of_mem q hp) hc)

theorem mem_intercalate {sep : List Char} {c : Char} : ∀ {parts : List (List Char)}, c ∈ sep.intercalate parts →
    c ∈ sep ∨ ∃ part ∈ parts, c ∈ part
  | [], h => by cases h
  | [part], h => .inr ⟨part, List.mem_cons_self, by rwa [List.intercalate_singleton] at h⟩
  | part :: next :: parts, h => by
    rw [List.intercalate_cons_cons, List.mem_append, List.mem_append] at h
    rcases h with (h | h) | h
    · exact .inr ⟨part, List.mem_cons_self, h⟩
    · exact .inl h
    · rcases mem_intercalate h with h | ⟨p, hp, h⟩
      · exact .inl h
      · exact .inr ⟨p, List.mem_cons_of_mem _ hp, h⟩

/-- Joined parts with one more behind them: the separator stands after each of the others. -/
theorem intercalate_concat (sep last : List Char) : ∀ parts : List (List Char),
    sep.intercalate (parts ++ [last]) = parts.flatMap (· ++ sep) ++ last
  | [] => List.intercalate_singleton
  | part :: parts => by
    have hne : parts ++ [last] ≠ [] := List.append_ne_nil_of_right_ne_nil _ (List.cons_ne_nil _ _)
    rw [List.cons_append, List.intercalate_cons_of_ne_nil hne, intercalate_concat sep last parts, List.flatMap_cons]
    simp only [List.append_assoc]

theorem length_intercalate_le (sep : List Char) : ∀ parts : List (List Char),
    (sep.intercalate parts).length ≤ (parts.flatMap (· ++ sep)).length
  | [] => Nat.le_refl 0
  | [part] => by
    rw [List.intercalate_singleton, List.flatMap_singleton, List.length_append]
    exact Nat.le_add_right _ _
  | part :: next :: parts => by
    have ih := length_intercalate_le sep (next :: parts)
    rw [List.intercalate_cons_cons, List.flatMap_cons]
    simp only [List.length_append] at ih ⊢
    omega

/-! ## Empty pieces -/

variable {α : Type} [DecidableEq α]

theorem splitOn_cons_self (a : α) (s : List α) : (a :: s).splitOn a = [] :: s.splitOn a := by
  rw [List.splitOn_eq_splitOnP, List.splitOn_eq_splitOnP, List.splitOnP_cons_eq_if_modifyHead, if_pos (by simp)]

theorem splitOn_cons_of_ne {a c : α} (h : c ≠ a) (s : List α) :
    (c :: s).splitOn a = (s.splitOn a).modifyHead (c :: ·) := by
  rw [List.splitOn_eq_splitOnP, List.splitOn_eq_splitOnP, List.splitOnP_cons_eq_if_modifyHead, if_neg (by simpa using h)]

theorem splitOn_eq_cons (a : α) (s : List α) : ∃ p ps, s.splitOn a = p :: ps :=
  List.exists_cons_of_ne_nil (by rw [List.splitOn_eq_splitOnP]; exact List.splitOnP_ne_nil _ s)

theorem head?_splitOn_eq_nil_iff (a : α) (s : List α) :
    (s.splitOn a).head? = some [] ↔ s = [] ∨ s.head? = some a := by
  cases s with
  | nil => simp [List.splitOn_nil]
  | cons c s =>
    by_cases hc : c = a
    · subst hc
      simp [splitOn_cons_self]
    · obtain ⟨p, ps, hp⟩ := splitOn_eq_cons a s
      simp [splitOn_cons_of_ne hc, hp, hc]

theorem nil_mem_tail_splitOn_iff (a : α) : ∀ s : List α,
    [] ∈ (s.splitOn a).tail ↔ s.getLast? = some a ∨ [a, a] <:+: s
  | [] => by simp [List.splitOn_nil]
  | [c] => by
    by_cases hc : c = a
    · subst hc
      simp [splitOn_cons_self, List.splitOn_nil]
    · simp [splitOn_cons_of_ne hc, List.splitOn_nil, List.infix_cons_iff, hc]
  | c :: d :: s => by
    have ih := nil_mem_tail_splitOn_iff a (d :: s)
    have hhead := head?_splitOn_eq_nil_iff a (d :: s)
    obtain ⟨p, ps, hp⟩ := splitOn_eq_cons a (d :: s)
    have hpair : [a, a] <+: c :: d :: s ↔ c = a ∧ d = a := by
      simp [List.cons_prefix_cons, eq_comm]
    rw [hp] at ih hhead
    rw [List.infix_cons_iff, hpair, List.getLast?_cons_cons]
    by_cases hc : c = a
    · subst hc
      have hd : p = [] ↔ d = c := by simpa using hhead
      rw [List.tail_cons] at ih
      rw [splitOn_cons_self, hp, List.tail_cons, List.mem_cons, eq_comm, hd, ih]
      simp only [true_and]
      exact or_left_comm
    · rw [List.tail_cons] at ih
      rw [splitOn_cons_of_ne hc, hp, List.modifyHead_cons, List.tail_cons, ih]
      simp only [hc, false_and, false_or]

/-- **A text cut at a separator has an empty piece** where it is empty, starts or ends with the separator, or has it twice
in a row. -/
theorem nil_mem_splitOn_iff (a : α) (s : List α) :
    [] ∈ s.splitOn a ↔ s = [] ∨ s.head? = some a ∨ s.getLast? = some a ∨ [a, a] <:+: s := by
  have hhead := head?_splitOn_eq_nil_iff a s
  have htail := nil_mem_tail_splitOn_iff a s
  obtain ⟨p, ps, hp⟩ := splitOn_eq_cons a s
  rw [hp, List.head?_cons, Option.some.injEq] at hhead
  rw [hp, List.tail_cons] at htail
  rw [hp, List.mem_cons, eq_comm, hhead, htail, or_assoc]

end Text
end Stencil
