import Mathlib.Data.List.Chain
import Stencil.Proofs.Template.Merging
/-!
# Canonical — the one body that merging leaves for an outline

The outline of a body is what it says but for how its raw text is cut: the nodes that are not raw text, and the text
before, between and behind them.  Merging keeps the outline and sees nothing else of a body (`mergeText_eq_iff`).  Of the
bodies with one outline the merged body is the only one without an empty or a split raw text, and every other is longer
(`simplify_canonical`).
-/
namespace Stencil

/-- A body but for how its raw text is cut: the raw text in front of all other nodes, and each of these with the raw text
behind it. -/
structure Outline where
  front : String := ""
  others : List (Node × String) := []
deriving Repr, DecidableEq

def outline : List Node → Outline
  | [] => {}
  | .rawText text :: rest => { outline rest with front := text ++ (outline rest).front }
  | node :: rest => ⟨"", (node, (outline rest).front) :: (outline rest).others⟩

/-- No raw text is empty, and no two stand side by side. -/
structure Merged (body : List Node) : Prop where
  filled : ∀ text, .rawText text ∈ body → text ≠ ""
  apart : body.IsChain fun node next => ¬ (node.isRawText = true ∧ next.isRawText = true)

/-- **The canonical body of an outline**, which is that of the given body. -/
structure Canonical (body canonical : List Node) : Prop where
  outline_eq : outline canonical = outline body
  merged : Merged canonical
  eq_of_merged : ∀ other, outline other = outline body → Merged other → other = canonical
  shortest : ∀ other, outline other = outline body → other = canonical ∨ canonical.length < other.length

/-! ## Outlines -/

theorem outline_rawText (text : String) (rest : List Node) :
    outline (.rawText text :: rest) = { outline rest with front := text ++ (outline rest).front } := rfl

theorem outline_cons_of_not_isRawText {node : Node} (h : node.isRawText = false) (rest : List Node) :
    outline (node :: rest) = ⟨"", (node, (outline rest).front) :: (outline rest).others⟩ := by
  cases node with
  | rawText text => cases h
  | _ => rfl

theorem uncut_outline : Uncut outline where
  empty body := by rw [outline_rawText, String.empty_append]
  join s t body := by
    rw [outline_rawText, outline_rawText, outline_rawText]
    simp only [String.append_assoc]
  cons node body body' h := by
    cases hn : node.isRawText with
    | true =>
      obtain ⟨text, rfl⟩ := node.eq_rawText_of_isRawText hn
      rw [outline_rawText, outline_rawText, h]
    | false => rw [outline_cons_of_not_isRawText hn, outline_cons_of_not_isRawText hn, h]

namespace Outline

def spread : List (Node × String) → List Node
  | [] => []
  | (node, text) :: rest => node :: consText text (spread rest)

/-- A body with the given outline. -/
def body (o : Outline) : List Node := consText o.front (spread o.others)

end Outline

/-- **Merging sees nothing but the outline.** -/
theorem mergeText_eq_body : ∀ body : List Node, mergeText body = (outline body).body
  | [] => rfl
  | node :: rest => by
    have ih := mergeText_eq_body rest
    cases hn : node.isRawText with
    | true =>
      obtain ⟨text, rfl⟩ := node.eq_rawText_of_isRawText hn
      rw [mergeText_rawText, ih, Outline.body, consText_consText]
      rfl
    | false =>
      rw [mergeText_cons_of_not_isRawText hn, ih, outline_cons_of_not_isRawText hn, Outline.body, Outline.body,
        consText_empty]
      rfl

theorem mergeText_eq_iff (body body' : List Node) : mergeText body = mergeText body' ↔ outline body = outline body' := by
  constructor
  · intro h
    rw [← uncut_outline.apply_mergeText body, h, uncut_outline.apply_mergeText]
  · intro h
    rw [mergeText_eq_body, h, ← mergeText_eq_body]

/-! ## Merged bodies -/

theorem Merged.cons {node : Node} {rest : List Node} (hn : node.isRawText = false) (h : Merged rest) :
    Merged (node :: rest) := by
  refine ⟨fun text ht => ?_, List.isChain_cons.2 ⟨fun next _ hraw => ?_, h.apart⟩⟩
  · rcases List.mem_cons.1 ht with rfl | ht
    · cases hn
    · exact h.filled text ht
  · rw [hn] at hraw
    cases hraw.1

theorem Merged.tail {node : Node} {rest : List Node} (h : Merged (node :: rest)) : Merged rest :=
  ⟨fun text ht => h.filled text (List.mem_cons_of_mem node ht), (List.isChain_cons.1 h.apart).2⟩

/-- A raw text may stand in front of a merged body that starts with none. -/
theorem merged_rawText_cons {text : String} {rest : List Node} : Merged (.rawText text :: rest) ↔
    text ≠ "" ∧ (∀ next ∈ rest.head?, next.isRawText = false) ∧ Merged rest := by
  constructor
  · intro h
    refine ⟨h.filled text List.mem_cons_self, fun next hnext => ?_, h.tail⟩
    have hraw := (List.isChain_cons.1 h.apart).1 next hnext
    simpa [Node.isRawText] using hraw
  · rintro ⟨ht, hhead, h⟩
    refine ⟨fun other ho => ?_, List.isChain_cons.2 ⟨fun next hnext hraw => ?_, h.apart⟩⟩
    · rcases List.mem_cons.1 ho with ho | ho
      · cases ho
        exact ht
      · exact h.filled other ho
    · rw [hhead next hnext] at hraw
      cases hraw.2

/-- Where a raw text is not joined with what follows, it stands in front of it. -/
theorem consText_eq_cons {text : String} (ht : text ≠ "") {body : List Node}
    (hhead : ∀ next ∈ body.head?, next.isRawText = false) : consText text body = .rawText text :: body := by
  rcases body with _ | ⟨node, rest⟩
  · simp [consText, ht]
  · exact consText_of_not_isRawText ht (hhead node rfl) rest

/-- A raw text in front of a body is dropped, stands there on its own, or is joined with the first node. -/
theorem consText_cases (text : String) (body : List Node) : consText text body = body ∨
    (text ≠ "" ∧ (∀ next ∈ body.head?, next.isRawText = false) ∧ consText text body = .rawText text :: body) ∨
    ∃ next rest, text ≠ "" ∧ body = .rawText next :: rest ∧ consText text body = .rawText (text ++ next) :: rest := by
  by_cases ht : text = ""
  · rw [ht]
    exact .inl (consText_empty body)
  · by_cases hhead : ∀ next ∈ body.head?, next.isRawText = false
    · exact .inr (.inl ⟨ht, hhead, consText_eq_cons ht hhead⟩)
    · rcases body with _ | ⟨node, rest⟩
      · exact absurd (by simp) hhead
      · have hn : node.isRawText = true := by simpa using hhead
        obtain ⟨next, rfl⟩ := node.eq_rawText_of_isRawText hn
        exact .inr (.inr ⟨next, rest, ht, rfl, rfl⟩)

theorem Merged.consText {body : List Node} (h : Merged body) (text : String) : Merged (consText text body) := by
  rcases consText_cases text body with heq | ⟨ht, hhead, heq⟩ | ⟨next, rest, ht, rfl, heq⟩
  · rw [heq]
    exact h
  · rw [heq]
    exact merged_rawText_cons.2 ⟨ht, hhead, h⟩
  · obtain ⟨-, hhead, hrest⟩ := merged_rawText_cons.1 h
    rw [heq]
    exact merged_rawText_cons.2 ⟨by simp [ht], hhead, hrest⟩

theorem merged_mergeText : ∀ body : List Node, Merged (mergeText body)
  | [] => ⟨fun _ ht => (nomatch ht), List.isChain_nil⟩
  | node :: rest => by
    have ih := merged_mergeText rest
    cases hn : node.isRawText with
    | true =>
      obtain ⟨text, rfl⟩ := node.eq_rawText_of_isRawText hn
      exact ih.consText text
    | false =>
      rw [mergeText_cons_of_not_isRawText hn]
      exact ih.cons hn

theorem Merged.mergeText_eq : ∀ {body : List Node}, Merged body → mergeText body = body
  | [], _ => rfl
  | node :: rest, h => by
    have ih := h.tail.mergeText_eq
    cases hn : node.isRawText with
    | true =>
      obtain ⟨text, rfl⟩ := node.eq_rawText_of_isRawText hn
      obtain ⟨ht, hhead, -⟩ := merged_rawText_cons.1 h
      rw [mergeText_rawText, ih, consText_eq_cons ht hhead]
    | false => rw [mergeText_cons_of_not_isRawText hn, ih]

/-! ## Lengths -/

theorem consText_eq_or_length_le (text : String) (body : List Node) :
    consText text body = .rawText text :: body ∨ (consText text body).length ≤ body.length := by
  rcases consText_cases text body with heq | ⟨-, -, heq⟩ | ⟨next, rest, -, rfl, heq⟩
  · exact .inr (Nat.le_of_eq (congrArg List.length heq))
  · exact .inl heq
  · rw [heq, List.length_cons, List.length_cons]
    exact .inr (Nat.le_refl _)

/-- **Merging changes a body only where it makes it shorter.** -/
theorem mergeText_eq_or_length_lt : ∀ body : List Node, mergeText body = body ∨ (mergeText body).length < body.length
  | [] => .inl rfl
  | node :: rest => by
    have ih := mergeText_eq_or_length_lt rest
    have hle : (mergeText rest).length ≤ rest.length := by
      rcases ih with heq | hlt
      · exact Nat.le_of_eq (congrArg List.length heq)
      · omega
    cases hn : node.isRawText with
    | true =>
      obtain ⟨text, rfl⟩ := node.eq_rawText_of_isRawText hn
      rw [mergeText_rawText]
      -- Only a raw text that stays a node of its own keeps the length as it is.
      rcases consText_eq_or_length_le text (mergeText rest) with hcons | hcons
      · rw [hcons]
        rcases ih with heq | hlt
        · exact .inl (by rw [heq])
        · exact .inr (by simpa using hlt)
      · exact .inr (by rw [List.length_cons]; omega)
    | false =>
      rw [mergeText_cons_of_not_isRawText hn]
      rcases ih with heq | hlt
      · exact .inl (by rw [heq])
      · exact .inr (by simpa using hlt)

/-! ## Files -/

theorem canonical_mergeText (body : List Node) : Canonical body (mergeText body) := by
  refine ⟨uncut_outline.apply_mergeText body, merged_mergeText body, fun other ho hm => ?_, fun other ho => ?_⟩
  · rw [← (mergeText_eq_iff other body).2 ho, hm.mergeText_eq]
  · rw [← (mergeText_eq_iff other body).2 ho]
    rcases mergeText_eq_or_length_lt other with heq | hlt
    · exact .inl heq.symm
    · exact .inr hlt

/-- The body of a template, by the place of the template in its file. -/
def TemplateFile.bodyAt? (f : TemplateFile) (i : Nat) : Option (List Node) := f.templates[i]?.map Template.body

theorem bodyAt?_simplify (f : TemplateFile) (i : Nat) : (simplify f).bodyAt? i = (f.bodyAt? i).map mergeText := by
  rw [TemplateFile.bodyAt?, TemplateFile.bodyAt?, simplify, TemplateFile.mapBodies, List.getElem?_map, Option.map_map,
    Option.map_map]
  rfl

/-- **Simplifying leaves canonical bodies.**  A simplified file differs from the file in its bodies alone, and each of them
is the canonical one for its outline, so that simplifying again changes nothing.  Two bodies, of one file or of two, become
the same exactly if they have the same outline. -/
theorem simplify_canonical :
    (∀ f, (simplify f).path = f.path ∧ (simplify f).package = f.package ∧
      List.Forall₂ (fun t t' => t'.name = t.name ∧ Canonical t.body t'.body) f.templates (simplify f).templates ∧
      simplify (simplify f) = simplify f) ∧
    (∀ f g i j, (simplify f).bodyAt? i = (simplify g).bodyAt? j ↔
      (f.bodyAt? i).map outline = (g.bodyAt? j).map outline) := by
  refine ⟨fun f => ⟨rfl, rfl, ?_, simplify_simplify f⟩, fun f g i j => ?_⟩
  · refine List.forall₂_map_right_iff.2 (List.forall₂_same.2 fun t _ => ?_)
    exact ⟨rfl, canonical_mergeText t.body⟩
  · rw [bodyAt?_simplify, bodyAt?_simplify]
    cases f.bodyAt? i with
    | none => cases g.bodyAt? j <;> simp
    | some body =>
      cases g.bodyAt? j with
      | none => simp
      | some body' => simpa using mergeText_eq_iff body body'

/-- Empty raw texts go, also where they stand between two that are joined. -/
example : mergeText [.rawText "<b>", .rawText "", .rawText "hi", .print "name" false, .rawText "", .rawText "</b>"] =
    [.rawText "<b>hi", .print "name" false, .rawText "</b>"] := by decide

end Stencil
