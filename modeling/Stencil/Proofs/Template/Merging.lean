import Stencil.Template.Merging
/-!
# Merging — what merging leaves as it is

Whatever does not depend on how raw text is cut into nodes is the same for the merged body (`Uncut.apply_mergeText`).
Membership of other nodes is an instance, and merging itself, before which nodes may be rewritten (`uncut_mergeText_map`).
A body may as well be merged from its front (`mergeText_eq_foldl`).
-/
namespace Stencil

theorem Node.eq_rawText_of_isRawText {node : Node} (h : node.isRawText = true) : ∃ text, node = .rawText text := by
  cases node with
  | rawText text => exact ⟨text, rfl⟩
  | _ => cases h

@[simp] theorem consText_rawText (text next : String) (rest : List Node) :
    consText text (.rawText next :: rest) = .rawText (text ++ next) :: rest := rfl

@[simp] theorem consText_empty : ∀ body : List Node, consText "" body = body
  | [] => rfl
  | .rawText next :: rest => by rw [consText_rawText, String.empty_append]
  | .print .. :: _ | .message .. :: _ | .messageText .. :: _ | .bidi .. :: _ => rfl

theorem consText_nil {text : String} (h : text ≠ "") : consText text [] = [.rawText text] := by
  simp [consText, h]

theorem consText_of_not_isRawText {text : String} (ht : text ≠ "") {node : Node} (h : node.isRawText = false)
    (rest : List Node) : consText text (node :: rest) = .rawText text :: node :: rest := by
  cases node with
  | rawText next => cases h
  | _ => simp [consText, ht]

theorem consText_consText (s t : String) (body : List Node) : consText s (consText t body) = consText (s ++ t) body := by
  by_cases ht : t = ""
  · subst ht; simp
  · have hst : s ++ t ≠ "" := by simp [ht]
    rcases body with _ | ⟨node, rest⟩
    · simp [consText, ht, hst]
    · cases node with
      | rawText next => simp [String.append_assoc]
      | _ => simp [consText, ht, hst]

@[simp] theorem mergeText_rawText (text : String) (rest : List Node) :
    mergeText (.rawText text :: rest) = consText text (mergeText rest) := rfl

theorem mergeText_cons_of_not_isRawText {node : Node} (h : node.isRawText = false) (rest : List Node) :
    mergeText (node :: rest) = node :: mergeText rest := by
  cases node with
  | rawText text => cases h
  | _ => rfl

theorem mergeText_cons_congr (node : Node) {body body' : List Node} (h : mergeText body = mergeText body') :
    mergeText (node :: body) = mergeText (node :: body') := by
  cases hn : node.isRawText with
  | true =>
    obtain ⟨text, rfl⟩ := node.eq_rawText_of_isRawText hn
    rw [mergeText_rawText, mergeText_rawText, h]
  | false => rw [mergeText_cons_of_not_isRawText hn, mergeText_cons_of_not_isRawText hn, h]

/-- **What a body is taken to does not depend on how its raw text is cut into nodes.** -/
structure Uncut {α : Type} (F : List Node → α) : Prop where
  empty : ∀ body, F (.rawText "" :: body) = F body
  join : ∀ s t body, F (.rawText s :: .rawText t :: body) = F (.rawText (s ++ t) :: body)
  cons : ∀ node {body body'}, F body = F body' → F (node :: body) = F (node :: body')

namespace Uncut

variable {α : Type} {F : List Node → α} (h : Uncut F)
include h

theorem apply_consText (text : String) (body : List Node) : F (consText text body) = F (.rawText text :: body) := by
  by_cases ht : text = ""
  · rw [ht, consText_empty, h.empty]
  · rcases body with _ | ⟨node, rest⟩
    · simp [consText, ht]
    · cases hn : node.isRawText with
      | true =>
        obtain ⟨next, rfl⟩ := node.eq_rawText_of_isRawText hn
        rw [consText_rawText, h.join]
      | false => rw [consText_of_not_isRawText ht hn]

theorem apply_mergeText : ∀ body : List Node, F (mergeText body) = F body
  | [] => rfl
  | node :: rest => by
    have ih := h.cons node (apply_mergeText rest)
    cases hn : node.isRawText with
    | true =>
      obtain ⟨text, rfl⟩ := node.eq_rawText_of_isRawText hn
      rw [mergeText_rawText, h.apply_consText, ih]
    | false => rw [mergeText_cons_of_not_isRawText hn, ih]

end Uncut

/-- Nodes may be rewritten before merging or after it and merged again, where raw texts are kept. -/
theorem uncut_mergeText_map {g : Node → Node} (hg : ∀ text, g (.rawText text) = .rawText text) :
    Uncut fun body => mergeText (body.map g) where
  empty body := by rw [List.map_cons, hg, mergeText_rawText, consText_empty]
  join s t body := by
    rw [List.map_cons, List.map_cons, List.map_cons, hg, hg, hg, mergeText_rawText, mergeText_rawText, mergeText_rawText,
      consText_consText]
  cons node _ _ h := mergeText_cons_congr (g node) h

theorem uncut_mem {node : Node} (h : node.isRawText = false) : Uncut fun body => node ∈ body := by
  have hne : ∀ text, node ≠ .rawText text := by
    rintro text rfl
    cases h
  refine ⟨fun body => by simp [hne], fun s t body => by simp [hne], fun head body body' heq => ?_⟩
  rw [List.mem_cons, List.mem_cons, heq]

@[simp] theorem mergeText_mergeText (body : List Node) : mergeText (mergeText body) = mergeText body := by
  have h := (uncut_mergeText_map (g := id) fun _ => rfl).apply_mergeText body
  rwa [List.map_id, List.map_id] at h

@[simp] theorem simplify_simplify (f : TemplateFile) : simplify (simplify f) = simplify f := by
  simp [simplify, TemplateFile.mapBodies]

/-! ## Merging from the front -/

/-- What is merged so far, after one more node at its end. -/
def pushNode (merged : List Node) : Node → List Node
  | .rawText text =>
    if text.isEmpty then merged
    else match merged.getLast? with
      | some (.rawText previous) => merged.dropLast ++ [.rawText (previous ++ text)]
      | _ => merged ++ [.rawText text]
  | node => merged ++ [node]

theorem pushNode_rawText {merged : List Node} (h : ∀ node ∈ merged.getLast?, node.isRawText = false) (s t : String) :
    pushNode (merged ++ consText s []) (.rawText t) = merged ++ consText (s ++ t) [] := by
  by_cases ht : t = ""
  · simp [ht, pushNode]
  · have hopen : ∀ previous, merged.getLast? ≠ some (.rawText previous) := fun previous hlast => by cases h _ hlast
    by_cases hs : s = ""
    · -- Nothing is open at the end, so the text starts a node of its own.
      rw [hs, consText_empty, List.append_nil, String.empty_append, consText_nil ht, pushNode, if_neg (by simpa using ht)]
      split
      · next previous hlast => exact absurd hlast (hopen previous)
      · rfl
    · rw [consText_nil hs, consText_nil (by simp [hs])]
      simp [pushNode, ht]

theorem foldl_pushNode : ∀ (body merged : List Node) (s : String), (∀ node ∈ merged.getLast?, node.isRawText = false) →
    body.foldl pushNode (merged ++ consText s []) = merged ++ consText s (mergeText body)
  | [], _, _, _ => rfl
  | node :: rest, merged, s, h => by
    cases hn : node.isRawText with
    | true =>
      obtain ⟨text, rfl⟩ := node.eq_rawText_of_isRawText hn
      rw [List.foldl_cons, pushNode_rawText h, foldl_pushNode rest merged (s ++ text) h, mergeText_rawText,
        consText_consText]
    | false =>
      have hlast : ∀ last ∈ (merged ++ consText s [] ++ [node]).getLast?, last.isRawText = false := by
        simp [hn]
      have hpush : pushNode (merged ++ consText s []) node = merged ++ consText s [] ++ [node] ++ consText "" [] := by
        cases node with
        | rawText text => cases hn
        | _ => simp [pushNode]
      have hcons : consText s [] ++ node :: mergeText rest = consText s (node :: mergeText rest) := by
        by_cases hs : s = ""
        · simp [hs]
        · rw [consText_of_not_isRawText hs hn, consText_nil hs]
          rfl
      rw [List.foldl_cons, hpush, foldl_pushNode rest _ "" hlast, mergeText_cons_of_not_isRawText hn, ← hcons]
      simp

/-- **Merging from the front, node by node, comes to the same.** -/
theorem mergeText_eq_foldl (body : List Node) : mergeText body = body.foldl pushNode [] := by
  have h := foldl_pushNode body [] "" nofun
  rw [consText_empty, consText_empty] at h
  exact h.symm

section Rewriting

variable {g : Node → Node} (hg : ∀ text, g (.rawText text) = .rawText text)
  (hg' : ∀ node, node.isRawText = false → (g node).isRawText = false)
include hg hg'

theorem map_consText (text : String) (body : List Node) : (consText text body).map g = consText text (body.map g) := by
  by_cases ht : text = ""
  · subst ht; simp
  · rcases body with _ | ⟨node, rest⟩
    · simp [consText, ht, hg]
    · cases hn : node.isRawText with
      | true =>
        obtain ⟨next, rfl⟩ := node.eq_rawText_of_isRawText hn
        rw [consText_rawText, List.map_cons, List.map_cons, hg, hg, consText_rawText]
      | false =>
        rw [consText_of_not_isRawText ht hn, List.map_cons, List.map_cons, hg,
          consText_of_not_isRawText ht (hg' node hn)]

/-- **A rewriting that makes raw text only of raw text may be done before merging or after it.** -/
theorem map_mergeText : ∀ body : List Node, (mergeText body).map g = mergeText (body.map g)
  | [] => rfl
  | node :: rest => by
    have ih := map_mergeText rest
    cases hn : node.isRawText with
    | true =>
      obtain ⟨text, rfl⟩ := node.eq_rawText_of_isRawText hn
      rw [mergeText_rawText, map_consText hg hg', ih, List.map_cons, hg, mergeText_rawText]
    | false =>
      rw [mergeText_cons_of_not_isRawText hn, List.map_cons, List.map_cons, ih,
        mergeText_cons_of_not_isRawText (hg' node hn)]

end Rewriting
end Stencil
