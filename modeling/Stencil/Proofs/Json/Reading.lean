import Stencil.Json.Parse
import Stencil.Proofs.Json.Lexing
/-!
# Reading — a written value, read back

The lexemes of a value take the reader past it, whatever is open around it (`foldlM_lexemes`), so every value is read back
from either of its layouts, with nothing lost (`parse?_render`, `parse?_pretty`).
-/
namespace Stencil
namespace Json

open State (step)

/-- No value starts with the end of an array, so a first item is read like any value in an array without items. -/
theorem foldlM_lexemes_firstItem (j : Json) (opened : List Frame) (rest : List Token) :
    (lexemes j ++ rest).foldlM step (.firstItem opened) = (lexemes j ++ rest).foldlM step (.value (.items [] :: opened)) := by
  cases j with
  | array items => cases items <;> rfl
  | object members => cases members <;> rfl
  | _ => rfl

mutual

theorem foldlM_lexemes (opened : List Frame) (rest : List Token) : ∀ j : Json,
    (lexemes j ++ rest).foldlM step (.value opened) = rest.foldlM step (.after j opened)
  | .null => rfl
  | .bool _ => rfl
  | .number _ => rfl
  | .text _ => rfl
  | .array [] => rfl
  | .array (j :: js) => by
    rw [lexemes, List.cons_append, List.append_assoc, List.foldlM_cons]
    show (lexemes j ++ _).foldlM step (.firstItem opened) = _
    rw [foldlM_lexemes_firstItem, foldlM_lexemes _ _ j, foldlM_itemLexemes opened rest js]
    rfl
  | .object [] => rfl
  | .object ((key, j) :: ms) => by
    rw [lexemes, List.cons_append, List.cons_append, List.cons_append, List.append_assoc]
    show (lexemes j ++ _).foldlM step (.value (.member [] key :: opened)) = _
    rw [foldlM_lexemes _ _ j, foldlM_memberLexemes opened rest ms]
    rfl

theorem foldlM_itemLexemes (opened : List Frame) (rest : List Token) : ∀ (js : List Json) (v : Json) (read : List Json),
    (itemLexemes js ++ rest).foldlM step (.after v (.items read :: opened)) =
      rest.foldlM step (.after (.array ((v :: read).reverse ++ js)) opened)
  | [], v, read => by
    rw [List.append_nil]
    rfl
  | j :: js, v, read => by
    rw [itemLexemes, List.cons_append, List.append_assoc]
    show (lexemes j ++ _).foldlM step (.value (.items (v :: read) :: opened)) = _
    rw [foldlM_lexemes _ _ j, foldlM_itemLexemes opened rest js, List.reverse_cons (a := j), List.append_assoc,
      List.singleton_append]

theorem foldlM_memberLexemes (opened : List Frame) (rest : List Token) :
    ∀ (ms : List (Option String × Json)) (v : Json) (read : List (Option String × Json)) (key : Option String),
      (memberLexemes ms ++ rest).foldlM step (.after v (.member read key :: opened)) =
        rest.foldlM step (.after (.object (((key, v) :: read).reverse ++ ms)) opened)
  | [], v, read, key => by
    rw [List.append_nil]
    rfl
  | (key', j) :: ms, v, read, key => by
    rw [memberLexemes, List.cons_append, List.cons_append, List.cons_append, List.append_assoc]
    show (lexemes j ++ _).foldlM step (.value (.member ((key, v) :: read) key' :: opened)) = _
    rw [foldlM_lexemes _ _ j, foldlM_memberLexemes opened rest ms, List.reverse_cons (a := (key', j)), List.append_assoc,
      List.singleton_append]

end

theorem ofTokens?_lexemes (j : Json) : ofTokens? (lexemes j) = some j := by
  have h := foldlM_lexemes [] [] j
  rw [List.append_nil] at h
  rw [ofTokens?, h]
  rfl

theorem parse?_of_lexes {s : String} {j : Json} (h : Lexes s (lexemes j)) : parse? s = some j := by
  rw [parse?, h.tokens?]
  exact ofTokens?_lexemes j

/-- **Every value is read back from its line.** -/
theorem parse?_render (j : Json) : parse? j.render = some j := parse?_of_lexes (lexes_render j)

/-- **Every value is read back from its lines.** -/
theorem parse?_pretty (j : Json) : parse? j.pretty = some j := parse?_of_lexes (lexes_prettyAt 0 j)

/-- The end of the line may follow. -/
theorem parse?_line_of_lexes {s : String} {j : Json} (h : Lexes s (lexemes j)) : parse? (s ++ "\n") = some j := by
  have hend : Follows "\n" [] := follows_blank (c := '\n') rfl
  have hline := (h.append hend).lexes
  rw [List.append_nil] at hline
  exact parse?_of_lexes hline

theorem parse?_render_line (j : Json) : parse? (j.render ++ "\n") = some j := parse?_line_of_lexes (lexes_render j)

theorem parse?_pretty_line (j : Json) : parse? (j.pretty ++ "\n") = some j := parse?_line_of_lexes (lexes_prettyAt 0 j)

end Json
end Stencil
