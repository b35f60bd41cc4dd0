import Stencil.Proofs.Php.Routine
import Stencil.Proofs.Template.Insertion
import Stencil.Proofs.Template.Merging
import Stencil.Proofs.Template.Nodes
/-!
# Rendering — what a template shows

`rendering` is what a body shows on a page: its nodes one after the other, read off the tree with the bundle and the
direction of the run, without any code in between.  A message that branches shows nothing.  Insertion, folding and merging
leave what a body shows as it is.
-/
namespace Stencil

/-- Of the texts for both directions, the one that is shown. -/
def EffectiveDirection.shown (isRtl : Bool) (ltr rtl : String) : EffectiveDirection → String
  | .fixed .ltr => ltr
  | .fixed .rtl => rtl
  | .deferred => if isRtl then rtl else ltr

/-- The text that is shown for a message: the one that the bundle holds under its id, else its own. -/
def messageShown (bundle : Option Bundle) (id text : String) : String :=
  match (bundle.elim [] Bundle.messages).find? fun entry => entry.1 = id with
  | some entry => entry.2
  | none => text

/-- Insertion finds the text that is shown. -/
theorem translation_eq (bundle : Option Bundle) (id text : String) :
    translation bundle id text = messageShown bundle id text := by
  unfold messageShown
  split
  · next entry hentry =>
    obtain ⟨key, translated⟩ := entry
    obtain rfl : key = id := by simpa using List.find?_some hentry
    cases bundle with
    | none => cases hentry
    | some b => exact translation_of_mem (List.mem_of_find?_eq_some hentry) text
  · next hnone =>
    refine translation_of_not_mem (fun b hb translated hmem => ?_) text
    subst hb
    simpa using List.find?_eq_none.1 hnone _ hmem

section Rendering

variable (bundle : Option Bundle) (direction : EffectiveDirection) (page : Php.Page)

def Node.rendering : Node → Option String
  | .rawText text => some text
  | .print expression injected =>
    some (page.escaped (if injected then .injected else .data) ((expression.toList.splitOn '.').map String.ofList))
  | .message ⟨id, .text text⟩ => some (messageShown bundle id text)
  | .message _ => none
  | .messageText _ text => some text
  | .bidi ltr rtl => some (direction.shown page.isRtl ltr rtl)

def rendering : List Node → Option String
  | [] => some ""
  | node :: rest => do
    let first ← node.rendering bundle direction page
    let others ← rendering rest
    pure (first ++ others)

variable {bundle direction page}

theorem Node.rendering_insertText (node : Node) :
    (node.insertText bundle).rendering bundle direction page = node.rendering bundle direction page := by
  rcases node with _ | _ | ⟨id, text | _ | _⟩ | _ | _
  case message.text => exact congrArg some (translation_eq bundle id text)
  all_goals rfl

theorem Node.rendering_foldUnder (node : Node) :
    (node.foldUnder direction).rendering bundle direction page = node.rendering bundle direction page := by
  cases node with
  | bidi ltr rtl => rcases direction with (_ | _) | _ <;> rfl
  | _ => rfl

theorem rendering_cons_congr {node node' : Node} {body body' : List Node}
    (hn : node.rendering bundle direction page = node'.rendering bundle direction page)
    (hb : rendering bundle direction page body = rendering bundle direction page body') :
    rendering bundle direction page (node :: body) = rendering bundle direction page (node' :: body') := by
  rw [rendering, rendering, hn, hb]

theorem rendering_map {g : Node → Node}
    (hg : ∀ node, (g node).rendering bundle direction page = node.rendering bundle direction page) :
    ∀ body : List Node, rendering bundle direction page (body.map g) = rendering bundle direction page body
  | [] => rfl
  | node :: rest => rendering_cons_congr (hg node) (rendering_map hg rest)

theorem rendering_rawText (text : String) (body : List Node) : rendering bundle direction page (.rawText text :: body) =
    (rendering bundle direction page body).map (text ++ ·) := by
  rw [rendering]
  cases rendering bundle direction page body <;> rfl

theorem uncut_rendering : Uncut (rendering bundle direction page) where
  empty body := by
    rw [rendering_rawText]
    simp
  join s t body := by
    rw [rendering_rawText, rendering_rawText, rendering_rawText, Option.map_map]
    congr 1
    funext shown
    exact String.append_assoc.symm
  cons _ _ _ h := rendering_cons_congr rfl h

end Rendering
end Stencil
