import Mathlib.Data.List.Forall2
import Stencil.Proofs.Template.Nodes
/-!
# Insertion — what a file is after its messages were inserted

A message that branches refuses the file, and the file stays as it was; else every node of the file is inserted in its
place (`insertMessages_outcome`).  What a node may become is said without the rewriting (`Node.Inserted`), and a message
that branches may become nothing.
-/
namespace Stencil

/-- A message whose text branches on a value, and how it is named where it is refused. -/
inductive Node.Branches : Node → UnsupportedConstruct → Prop
  | plural (id selector : String) (cases : List MessageCase) :
      Branches (.message ⟨id, .plural selector cases⟩) ⟨id, .plural⟩
  | select (id selector : String) (cases : List MessageCase) :
      Branches (.message ⟨id, .select selector cases⟩) ⟨id, .select⟩

/-- The first message of a file that branches, in document order. -/
def TemplateFile.FirstBranch (f : TemplateFile) (u : UnsupportedConstruct) : Prop :=
  ∃ before node after, f.nodes = before ++ node :: after ∧ node.Branches u ∧ ∀ n ∈ before, ∀ v, ¬ n.Branches v

/-- **What a node becomes**: a message the text that the bundle holds under its id, one whose id the bundle does not hold
its own text, and every other node itself. -/
inductive Node.Inserted (bundle : Option Bundle) : Node → Node → Prop
  | translated {b : Bundle} {id text translation : String} : bundle = some b → (id, translation) ∈ b.messages →
      Inserted bundle (.message ⟨id, .text text⟩) (.messageText id translation)
  | untranslated {id text : String} : (∀ b, bundle = some b → ∀ translation, (id, translation) ∉ b.messages) →
      Inserted bundle (.message ⟨id, .text text⟩) (.messageText id text)
  | kept {node : Node} : (∀ m, node ≠ .message m) → Inserted bundle node node

def Template.Inserted (bundle : Option Bundle) (t t' : Template) : Prop :=
  t'.name = t.name ∧ List.Forall₂ (Node.Inserted bundle) t.body t'.body

/-- A file and the same file with every node inserted in its place. -/
structure TemplateFile.Inserted (bundle : Option Bundle) (f f' : TemplateFile) : Prop where
  path : f'.path = f.path
  package : f'.package = f.package
  templates : List.Forall₂ (Template.Inserted bundle) f.templates f'.templates

variable {bundle : Option Bundle}

/-! ## Nodes -/

theorem unsupported?_eq_some_iff {node : Node} {u : UnsupportedConstruct} :
    node.unsupported? = some u ↔ node.Branches u := by
  constructor
  · intro h
    rcases node with _ | _ | ⟨id, _ | _ | _⟩ | _ | _ <;> simp [Node.unsupported?] at h
    · subst h
      exact .plural id _ _
    · subst h
      exact .select id _ _
  · rintro (_ | _) <;> rfl

theorem not_branches_iff {node : Node} : (∀ u, ¬ node.Branches u) ↔ node.unsupported? = none := by
  rw [Option.eq_none_iff_forall_ne_some]
  exact forall_congr' fun u => not_congr unsupported?_eq_some_iff.symm

theorem translation_of_mem {b : Bundle} {id translated : String} (h : (id, translated) ∈ b.messages) (text : String) :
    translation (some b) id text = translated := by
  simp [translation, Bundle.get_eq_some_iff.2 h]

theorem translation_of_not_mem {id : String} (h : ∀ b, bundle = some b → ∀ translated, (id, translated) ∉ b.messages)
    (text : String) : translation bundle id text = text := by
  cases bundle with
  | none => rfl
  | some b => simp [translation, Bundle.get_eq_none_iff.2 (h b rfl)]

theorem inserted_message (bundle : Option Bundle) (id text : String) :
    Node.Inserted bundle (.message ⟨id, .text text⟩) (.messageText id (translation bundle id text)) := by
  by_cases h : ∃ b translated, bundle = some b ∧ (id, translated) ∈ b.messages
  · obtain ⟨b, translated, rfl, hmem⟩ := h
    rw [translation_of_mem hmem]
    exact .translated rfl hmem
  · have hnone : ∀ b, bundle = some b → ∀ translated, (id, translated) ∉ b.messages :=
      fun b hb translated hmem => h ⟨b, translated, hb, hmem⟩
    rw [translation_of_not_mem hnone]
    exact .untranslated hnone

/-- **A node that does not branch becomes one node**, the one that insertion writes. -/
theorem Node.inserted_iff (bundle : Option Bundle) (node node' : Node) :
    node.Inserted bundle node' ↔ node.unsupported? = none ∧ node' = node.insertText bundle := by
  constructor
  · rintro (⟨rfl, hmem⟩ | hnone | hkept)
    · refine ⟨rfl, ?_⟩
      simp only [insertText, translation_of_mem hmem]
    · refine ⟨rfl, ?_⟩
      simp only [insertText, translation_of_not_mem hnone]
    · cases node with
      | message m => exact absurd rfl (hkept m)
      | _ => exact ⟨rfl, rfl⟩
  · rintro ⟨hplain, rfl⟩
    rcases node with _ | _ | ⟨id, text | _ | _⟩ | _ | _
    case message.text => exact inserted_message bundle id text
    case message.plural => cases hplain
    case message.select => cases hplain
    all_goals exact .kept fun m h => nomatch h

theorem Node.Inserted.ne_message {node node' : Node} (h : node.Inserted bundle node') (m : Message) :
    node' ≠ .message m := by
  rcases h with _ | _ | hkept
  · nofun
  · nofun
  · exact hkept m

/-! ## Files -/

/-- Where what an element becomes is given by a function, so is what a list becomes. -/
theorem forall₂_iff_map {α β : Type} {R : α → β → Prop} {P : α → Prop} {g : α → β} (h : ∀ x y, R x y ↔ P x ∧ y = g x)
    {xs : List α} {ys : List β} : List.Forall₂ R xs ys ↔ (∀ x ∈ xs, P x) ∧ ys = xs.map g := by
  induction xs generalizing ys with
  | nil => simp
  | cons x xs ih =>
    cases ys with
    | nil => simp
    | cons y ys =>
      rw [List.forall₂_cons, h, ih, List.map_cons, List.cons.injEq, List.forall_mem_cons]
      constructor
      · rintro ⟨⟨hx, hy⟩, hxs, hys⟩
        exact ⟨⟨hx, hxs⟩, hy, hys⟩
      · rintro ⟨⟨hx, hxs⟩, hy, hys⟩
        exact ⟨⟨hx, hy⟩, hxs, hys⟩

theorem Template.inserted_iff (bundle : Option Bundle) (t t' : Template) : t.Inserted bundle t' ↔
    (∀ node ∈ t.body, node.unsupported? = none) ∧ t' = { t with body := t.body.map (Node.insertText bundle) } := by
  rw [Template.Inserted, forall₂_iff_map (Node.inserted_iff bundle)]
  obtain ⟨name', body'⟩ := t'
  simp only [Template.mk.injEq]
  constructor
  · rintro ⟨hname, hplain, hbody⟩
    exact ⟨hplain, hname, hbody⟩
  · rintro ⟨hplain, hname, hbody⟩
    exact ⟨hname, hplain, hbody⟩

theorem TemplateFile.inserted_iff {f f' : TemplateFile} : f.Inserted bundle f' ↔
    (∀ node ∈ f.nodes, node.unsupported? = none) ∧ f' = f.mapNodes (Node.insertText bundle) := by
  have hnodes : (∀ node ∈ f.nodes, node.unsupported? = none) ↔
      ∀ t ∈ f.templates, ∀ node ∈ t.body, node.unsupported? = none := by
    simp only [mem_nodes]
    exact ⟨fun h t ht node hn => h node ⟨t, ht, hn⟩, fun h node ⟨t, ht, hn⟩ => h t ht node hn⟩
  constructor
  · rintro ⟨hpath, hpackage, htemplates⟩
    obtain ⟨hplain, hmap⟩ := (forall₂_iff_map (Template.inserted_iff bundle)).1 htemplates
    refine ⟨hnodes.2 hplain, ?_⟩
    obtain ⟨path', package', templates'⟩ := f'
    simp only at hpath hpackage hmap
    rw [hpath, hpackage, hmap]
    rfl
  · rintro ⟨hplain, rfl⟩
    exact ⟨rfl, rfl, (forall₂_iff_map (Template.inserted_iff bundle)).2 ⟨hnodes.1 hplain, rfl⟩⟩

theorem TemplateFile.firstBranch_iff {f : TemplateFile} {u : UnsupportedConstruct} :
    f.FirstBranch u ↔ f.nodes.findSome? Node.unsupported? = some u := by
  rw [List.findSome?_eq_some_iff]
  simp only [FirstBranch, unsupported?_eq_some_iff, not_branches_iff]

/-- **Insertion either refuses a file for its first message that branches and leaves it as it was, or inserts every node
in its place.**  It refuses exactly the files that have such a message, and afterwards no message is left. -/
theorem insertMessages_outcome (bundle : Option Bundle) (f : TemplateFile) :
    ((∃ u, (insertMessages bundle f).1 = .error u) ↔ ∃ node ∈ f.nodes, ∃ u, node.Branches u) ∧
    (∀ u f', insertMessages bundle f = (.error u, f') ↔ f.FirstBranch u ∧ f' = f) ∧
    (∀ f', insertMessages bundle f = (.ok (), f') ↔ f.Inserted bundle f') ∧
    (∀ f', f.Inserted bundle f' → f'.nodes.length = f.nodes.length ∧ ∀ m, .message m ∉ f'.nodes) := by
  have hlast : ∀ f', f.Inserted bundle f' → f'.nodes.length = f.nodes.length ∧ ∀ m, .message m ∉ f'.nodes := by
    intro f' h
    obtain ⟨hplain, rfl⟩ := TemplateFile.inserted_iff.1 h
    rw [TemplateFile.nodes_mapNodes]
    refine ⟨List.length_map _, fun m hm => ?_⟩
    obtain ⟨node, hnode, hm⟩ := List.mem_map.1 hm
    exact ((Node.inserted_iff bundle node _).2 ⟨hplain node hnode, rfl⟩).ne_message m hm
  simp only [TemplateFile.firstBranch_iff, TemplateFile.inserted_iff] at hlast ⊢
  refine ⟨?_, ?_, ?_, hlast⟩
  · unfold insertMessages
    cases hfirst : f.nodes.findSome? Node.unsupported? with
    | none =>
      have hplain := List.findSome?_eq_none_iff.1 hfirst
      simp only [reduceCtorEq, exists_false, false_iff]
      rintro ⟨node, hnode, u, hu⟩
      rw [← unsupported?_eq_some_iff, hplain node hnode] at hu
      cases hu
    | some u =>
      obtain ⟨before, node, after, hsplit, hu, -⟩ := List.findSome?_eq_some_iff.1 hfirst
      simp only [Except.error.injEq, exists_eq', true_iff]
      exact ⟨node, by simp [hsplit], u, unsupported?_eq_some_iff.1 hu⟩
  · intro u f'
    unfold insertMessages
    cases f.nodes.findSome? Node.unsupported? <;> simp [eq_comm]
  · intro f'
    rw [← List.findSome?_eq_none_iff]
    unfold insertMessages
    cases f.nodes.findSome? Node.unsupported? <;> simp [eq_comm]

end Stencil
