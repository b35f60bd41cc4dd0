import Stencil.Template.Folding
import Stencil.Template.Insertion
/-!
# Nodes — what insertion and folding make of a file, node by node

A file without plural and select messages is never refused, and then insertion rewrites every node in its place, as
folding does (`insertMessages_of_plain`, `foldDirection_eq`).
-/
namespace Stencil

/-- A node under a direction that may be left to the generated code. -/
def Node.foldUnder (direction : EffectiveDirection) : Node → Node
  | .bidi ltr rtl => match direction with
    | .fixed d => .rawText (d.choose ltr rtl)
    | .deferred => .bidi ltr rtl
  | node => node

namespace TemplateFile

/-- All messages of the file are of plain text. -/
def Plain (f : TemplateFile) : Prop := ∀ m, Node.message m ∈ f.nodes → ∃ text, m.body = .text text

theorem mem_nodes {f : TemplateFile} {node : Node} : node ∈ f.nodes ↔ ∃ t ∈ f.templates, node ∈ t.body := by
  rw [nodes, List.mem_flatMap]

/-- A page with a node of every kind. -/
def welcome : TemplateFile where
  path := "welcome.tpl"
  package := "app.page"
  templates := [⟨"welcome", [.rawText "<p dir=", .bidi "ltr" "rtl", .rawText ">", .plainMessage "hello" "It's you, ",
    .print "user.name" false, .messageText "bye" "Bye", .rawText "</p>"]⟩]

@[simp] theorem mapBodies_mapBodies (g h : List Node → List Node) (f : TemplateFile) :
    (f.mapBodies h).mapBodies g = f.mapBodies fun body => g (h body) := by
  simp [mapBodies]

@[simp] theorem mapNodes_mapNodes (g h : Node → Node) (f : TemplateFile) :
    (f.mapNodes h).mapNodes g = f.mapNodes fun node => g (h node) := by
  simp only [mapNodes, mapBodies_mapBodies, List.map_map]
  rfl

theorem mapBodies_id (f : TemplateFile) : f.mapBodies id = f := by
  simp [mapBodies]

theorem mapNodes_id (f : TemplateFile) : f.mapNodes id = f := by
  rw [mapNodes, List.map_id_fun, mapBodies_id]

theorem mapBodies_congr {g h : List Node → List Node} (hgh : ∀ body, g body = h body) (f : TemplateFile) :
    f.mapBodies g = f.mapBodies h := by
  rw [show g = h from funext hgh]

end TemplateFile

theorem unsupported?_eq_none_iff (node : Node) :
    node.unsupported? = none ↔ ∀ m, node = .message m → ∃ text, m.body = .text text := by
  rcases node with _ | _ | ⟨id, _ | _ | _⟩ | _ | _ <;> simp [Node.unsupported?]

/-- **Exactly the files with a plural or select message are refused.** -/
theorem findSome?_unsupported?_eq_none_iff (f : TemplateFile) :
    f.nodes.findSome? Node.unsupported? = none ↔ f.Plain := by
  rw [List.findSome?_eq_none_iff]
  constructor
  · intro h m hm
    exact (unsupported?_eq_none_iff _).1 (h _ hm) m rfl
  · intro h node hnode
    refine (unsupported?_eq_none_iff node).2 fun m hm => ?_
    exact h m (hm ▸ hnode)

theorem insertMessages_of_plain (bundle : Option Bundle) {f : TemplateFile} (h : f.Plain) :
    insertMessages bundle f = (.ok (), f.mapNodes (Node.insertText bundle)) := by
  rw [insertMessages, (findSome?_unsupported?_eq_none_iff f).2 h]

theorem foldDirection_eq (direction : EffectiveDirection) (f : TemplateFile) :
    foldDirection direction f = f.mapNodes (Node.foldUnder direction) := by
  cases direction with
  | fixed d =>
    have hd : Node.fold d = Node.foldUnder (.fixed d) := by
      funext node
      cases node <;> rfl
    rw [← hd]
    rfl
  | deferred =>
    have hd : Node.foldUnder .deferred = id := by
      funext node
      cases node <;> rfl
    rw [hd, TemplateFile.mapNodes_id]
    rfl

end Stencil
