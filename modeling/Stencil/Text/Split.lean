/-!
# Split — a text cut at its separators

`pieces sep s` are the stretches of `s` between separator characters, empty ones kept, so that `n` separators leave
`n + 1` pieces (`length_pieces`) and no piece holds a separator (`not_sep_of_mem_pieces`).  Locales, dotted names, data
expressions and paths are all read this way.
-/
namespace Stencil
namespace Text

/-- The stretches between separators, in order, empty ones included. -/
def pieces (sep : Char → Bool) : List Char → List (List Char)
  | [] => [[]]
  | c :: cs =>
    if sep c then [] :: pieces sep cs
    else match pieces sep cs with
      | [] => [[c]]
      | p :: ps => (c :: p) :: ps

theorem pieces_ne_nil (sep : Char → Bool) : ∀ s : List Char, pieces sep s ≠ []
  | [] => by simp [pieces]
  | c :: cs => by
    unfold pieces
    split
    · simp
    · split <;> simp

/-- **Every separator makes one more piece.** -/
theorem length_pieces (sep : Char → Bool) : ∀ s : List Char, (pieces sep s).length = s.countP sep + 1
  | [] => rfl
  | c :: cs => by
    have ih := length_pieces sep cs
    unfold pieces
    by_cases hc : sep c
    · simp [hc, ih]
    · simp only [hc, Bool.false_eq_true, if_false]
      cases hp : pieces sep cs with
      | nil => exact absurd hp (pieces_ne_nil sep cs)
      | cons p ps => rw [hp] at ih; simpa [List.countP_cons, hc] using ih

/-- **No piece holds a separator.** -/
theorem not_sep_of_mem_pieces (sep : Char → Bool) :
    ∀ s : List Char, ∀ p ∈ pieces sep s, ∀ c ∈ p, sep c = false
  | [], p, hp, c, hc => by simp [pieces] at hp; subst hp; cases hc
  | d :: cs, p, hp, c, hc => by
    have ih := not_sep_of_mem_pieces sep cs
    unfold pieces at hp
    split at hp
    · rcases List.mem_cons.1 hp with rfl | hp
      · cases hc
      · exact ih p hp c hc
    · next hd =>
      split at hp
      · simp only [List.mem_singleton] at hp
        subst hp
        simp only [List.mem_singleton] at hc
        subst hc
        simpa using hd
      · next q qs hq =>
        rcases List.mem_cons.1 hp with rfl | hp
        · rcases List.mem_cons.1 hc with rfl | hc
          · simpa using hd
          · exact ih q (by rw [hq]; simp) c hc
        · exact ih p (by rw [hq]; simp [hp]) c hc

/-- The pieces of a string between occurrences of one character. -/
def splitOn (sep : Char) (s : String) : List String :=
  (pieces (· == sep) s.toList).map String.ofList

end Text
end Stencil
