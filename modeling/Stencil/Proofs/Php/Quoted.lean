import Stencil.Php.Render
import Stencil.Proofs.Text.Split
/-!
# Quoted — literals are read back exactly

A reader of single-quoted literals goes to the first quote that no backslash escapes and gives the text in between and
what follows it.  Started at the literal of a text it gives that text and stops right behind the literal, whatever
follows (`literal?_quote_append`).  So a data access reads back as its keys (`subscripts_append`), and with them the
expression is known (`quoting_exact`).
-/
namespace Stencil
namespace Php

/-- The rest of a literal: the text up to the quote that closes it, and what follows that quote. -/
def inside? : List Char → Option (List Char × List Char)
  | '\'' :: rest => some ([], rest)
  | '\\' :: '\\' :: rest => (inside? rest).map fun r => ('\\' :: r.1, r.2)
  | '\\' :: '\'' :: rest => (inside? rest).map fun r => ('\'' :: r.1, r.2)
  | c :: rest => (inside? rest).map fun r => (c :: r.1, r.2)
  | [] => none

/-- The text of the literal that a text starts with, and what follows it. -/
def literal? : List Char → Option (String × List Char)
  | '\'' :: rest => (inside? rest).map fun r => (String.ofList r.1, r.2)
  | _ => none

example : literal? "'it\\'s \\n' . $x".toList = some ("it's \\n", " . $x".toList) := by decide

theorem inside?_of_ne {c : Char} (hq : c ≠ '\'') (hb : c ≠ '\\') (rest : List Char) :
    inside? (c :: rest) = (inside? rest).map fun r => (c :: r.1, r.2) := by
  rw [inside?]
  · exact hq
  · intro _ h; exact absurd h hb
  · intro _ h; exact absurd h hb

theorem inside?_escape_append (s rest : List Char) : inside? (escape s ++ '\'' :: rest) = some (s, rest) := by
  induction s with
  | nil => rfl
  | cons c s ih =>
    by_cases hc : c = '\\' ∨ c = '\''
    · rw [escape, if_pos hc]
      rcases hc with rfl | rfl <;> simp only [List.cons_append, inside?, ih, Option.map_some]
    · obtain ⟨hb, hq⟩ := not_or.1 hc
      rw [escape, if_neg hc, List.cons_append, inside?_of_ne hq hb, ih, Option.map_some]

/-- **The literal of a text reads as that text**, and the reader stops right behind it. -/
theorem literal?_quote_append (s : String) (rest : List Char) : literal? ((quote s).toList ++ rest) = some (s, rest) := by
  rw [quote, String.toList_ofList, List.cons_append, List.append_assoc, List.singleton_append, literal?,
    inside?_escape_append, Option.map_some, String.ofList_toList]

theorem length_lt_of_inside? {s : List Char} {r : List Char × List Char} (h : inside? s = some r) :
    r.2.length < s.length := by
  fun_induction inside? s generalizing r with
  | case1 rest =>
    cases h
    exact Nat.lt_succ_self _
  | case2 rest ih | case3 rest ih =>
    obtain ⟨q, hq, rfl⟩ := Option.map_eq_some_iff.1 h
    have hlt := ih hq
    simp only [List.length_cons]
    omega
  | case4 c rest _ _ _ ih =>
    obtain ⟨q, hq, rfl⟩ := Option.map_eq_some_iff.1 h
    have hlt := ih hq
    exact Nat.lt_succ_of_lt hlt
  | case5 => cases h

theorem length_lt_of_literal? {s rest : List Char} {text : String} (h : literal? s = some (text, rest)) :
    rest.length < s.length := by
  unfold literal? at h
  split at h
  · obtain ⟨q, hq, hr⟩ := Option.map_eq_some_iff.1 h
    cases hr
    exact Nat.lt_succ_of_lt (length_lt_of_inside? hq)
  · cases h

/-! ## Data accesses -/

/-- The keys of the subscripts that a text starts with, and what follows them. -/
def subscripts (s : List Char) : List String × List Char :=
  match s with
  | '[' :: cs =>
    match _h : literal? cs with
    | some (key, ']' :: rest) => (key :: (subscripts rest).1, (subscripts rest).2)
    | _ => ([], s)
  | _ => ([], s)
termination_by s.length
decreasing_by
  all_goals
    have hlt := length_lt_of_literal? _h
    simp only [List.length_cons] at hlt ⊢
    omega

theorem subscripts_of_head? {s : List Char} (h : s.head? ≠ some '[') : subscripts s = ([], s) := by
  unfold subscripts
  split
  · exact absurd rfl h
  · rfl

theorem subscripts_cons (key : String) (rest : List Char) :
    subscripts ('[' :: ((quote key).toList ++ ']' :: rest)) = (key :: (subscripts rest).1, (subscripts rest).2) := by
  rw [subscripts]
  split
  · next h =>
    rw [literal?_quote_append] at h
    cases h
    rfl
  · next h => exact absurd (literal?_quote_append key (']' :: rest)) (h _ _)

/-- The subscripts that are written for keys read as those keys, whatever follows but one more subscript. -/
theorem subscripts_append (keys : List String) {rest : List Char} (h : rest.head? ≠ some '[') :
    subscripts ((String.join (keys.map fun key => "[" ++ quote key ++ "]")).toList ++ rest) = (keys, rest) := by
  induction keys with
  | nil => exact subscripts_of_head? h
  | cons key keys ih =>
    have hkey : ∀ tail : List Char,
        ("[" ++ quote key ++ "]").toList ++ tail = '[' :: ((quote key).toList ++ ']' :: tail) := by
      intro tail
      rw [String.toList_append, String.toList_append, List.append_assoc, List.append_assoc]
      rfl
    rw [List.map_cons, String.join_cons, String.toList_append, List.append_assoc, hkey, subscripts_cons, ih]

theorem keys_eq (expression : String) :
    Text.splitOn '.' expression = (expression.toList.splitOn '.').map String.ofList := by
  rw [Text.splitOn, Text.pieces_eq_splitOnP, List.splitOn_eq_splitOnP]

theorem keys?_eq_some {expression : String} {keys : List String} (h : keys? expression = some keys) :
    keys = (expression.toList.splitOn '.').map String.ofList := by
  rw [keys?, keys_eq] at h
  split at h
  · cases h
  · exact (Option.some.inj h).symm

/-- Keys make up one expression alone. -/
theorem eq_of_keys? {e e' : String} {keys : List String} (h : keys? e = some keys) (h' : keys? e' = some keys) :
    e = e' := by
  have hkeys := (keys?_eq_some h).symm.trans (keys?_eq_some h')
  have hpieces := (List.map_inj_right fun _ _ => String.ofList_inj.1).1 hkeys
  have hjoined : ∀ e : String, ['.'].intercalate (e.toList.splitOn '.') = e.toList := fun _ => List.intercalate_splitOn '.'
  rw [← String.toList_inj, ← hjoined e, hpieces, hjoined]

/-- **Quoting is exact.**  Whatever follows the literal of a text, it reads as that text and no further.  The access that is
written for an expression reads back as the keys between its points, and two expressions never have one access. -/
theorem quoting_exact :
    (∀ (s : String) (rest : List Char), literal? ((quote s).toList ++ rest) = some (s, rest)) ∧
      (∀ (root : Root) (expression : String) (keys : List String), keys? expression = some keys →
        ∃ access : List Char, (renderAccess root keys).toList = root.render.toList ++ access ∧
          ∀ rest : List Char, rest.head? ≠ some '[' →
            subscripts (access ++ rest) = ((expression.toList.splitOn '.').map String.ofList, rest)) ∧
      ∀ (root : Root) (e e' : String) (keys keys' : List String), keys? e = some keys → keys? e' = some keys' →
        renderAccess root keys = renderAccess root keys' → e = e' := by
  refine ⟨literal?_quote_append, fun root expression keys h => ?_, fun root e e' keys keys' h h' haccess => ?_⟩
  · refine ⟨_, String.toList_append, fun rest hrest => ?_⟩
    rw [← keys?_eq_some h]
    exact subscripts_append keys hrest
  · have htext : (renderAccess root keys).toList = (renderAccess root keys').toList := congrArg String.toList haccess
    rw [renderAccess, renderAccess, String.toList_append, String.toList_append, List.append_cancel_left_eq] at htext
    have hend : ([] : List Char).head? ≠ some '[' := by decide
    have hread := subscripts_append keys hend
    rw [htext, subscripts_append keys' hend] at hread
    obtain rfl : keys' = keys := congrArg Prod.fst hread
    exact eq_of_keys? h h'

/-- A text that ends in a backslash, and a key that looks like two. -/
theorem quoting_exact_lookalike :
    literal? ((quote "it's \\").toList ++ "'] . $x".toList) = some ("it's \\", "'] . $x".toList) ∧
      (∃ access, (renderAccess .data ["a']['b", "\\'"]).toList = "$data".toList ++ access ∧
        subscripts (access ++ ")".toList) = (["a']['b", "\\'"], ")".toList)) ∧
      renderAccess .data ["a']['b"] ≠ renderAccess .data ["a", "b"] := by
  obtain ⟨hliteral, haccess, hinjective⟩ := quoting_exact
  obtain ⟨access, htext, hread⟩ := haccess .data "a']['b.\\'" ["a']['b", "\\'"] rfl
  refine ⟨hliteral _ _, ⟨access, htext, hread _ (by decide)⟩, fun h => ?_⟩
  exact absurd (hinjective .data "a']['b" "a.b" _ _ rfl rfl h) (by decide)

end Php
end Stencil
