import Stencil.Proofs.Template.Merging
import Stencil.Proofs.Template.Nodes
/-!
# PassOrder — passes over a tree in any order

Insertion and folding rewrite nodes of different kinds in their place, and what either writes both leave alone; merging
sees only the node that a place ends up with.  So a row of passes that inserts, folds and merges at its end leaves one
tree, whatever else it does and in whatever order (`runPasses_normal`).
-/
namespace Stencil

inductive Pass
  | insert
  | fold
  | simplify
deriving Repr, DecidableEq

def Pass.run (bundle : Option Bundle) (direction : EffectiveDirection) :
    Pass → TemplateFile → Except UnsupportedConstruct Unit × TemplateFile
  | .insert, f => insertMessages bundle f
  | .fold, f => (.ok (), foldDirection direction f)
  | .simplify, f => (.ok (), Stencil.simplify f)

/-- Passes one after the other, up to the first that refuses the file. -/
def runPasses (bundle : Option Bundle) (direction : EffectiveDirection) :
    List Pass → TemplateFile → Except UnsupportedConstruct Unit × TemplateFile
  | [], f => (.ok (), f)
  | p :: ps, f =>
    match p.run bundle direction f with
    | (.ok (), f) => runPasses bundle direction ps f
    | (.error cause, f) => (.error cause, f)

namespace Pass

variable (bundle : Option Bundle) (direction : EffectiveDirection)

/-- What becomes of the node in a place. -/
def onNode : Pass → Node → Node
  | .insert => Node.insertText bundle
  | .fold => Node.foldUnder direction
  | .simplify => id

def onNodes (ps : List Pass) (node : Node) : Node := ps.foldl (fun node p => p.onNode bundle direction node) node

/-- The file that a pass leaves of one that it does not refuse. -/
def leave : Pass → TemplateFile → TemplateFile
  | .simplify, f => Stencil.simplify f
  | p, f => f.mapNodes (p.onNode bundle direction)

def leaveAll (ps : List Pass) (f : TemplateFile) : TemplateFile := ps.foldl (fun f p => p.leave bundle direction f) f

variable {bundle direction}

theorem leave_insert (f : TemplateFile) :
    Pass.insert.leave bundle direction f = f.mapNodes (Pass.insert.onNode bundle direction) := rfl

theorem leave_fold (f : TemplateFile) :
    Pass.fold.leave bundle direction f = f.mapNodes (Pass.fold.onNode bundle direction) := rfl

@[simp] theorem onNode_rawText (p : Pass) (text : String) : p.onNode bundle direction (.rawText text) = .rawText text := by
  cases p <;> rfl

theorem onNodes_rawText (ps : List Pass) (text : String) :
    onNodes bundle direction ps (.rawText text) = .rawText text := by
  induction ps with
  | nil => rfl
  | cons p ps ih => rw [onNodes, List.foldl_cons, onNode_rawText, ← onNodes, ih]

theorem onNode_onNode (p : Pass) (node : Node) :
    p.onNode bundle direction (p.onNode bundle direction node) = p.onNode bundle direction node := by
  cases p with
  | insert => rcases node with _ | _ | ⟨_, _ | _ | _⟩ | _ | _ <;> rfl
  | fold => cases direction <;> cases node <;> rfl
  | simplify => rfl

/-- **Passes rewrite nodes of different kinds**, so that their order does not matter. -/
theorem onNode_comm (p q : Pass) (node : Node) :
    p.onNode bundle direction (q.onNode bundle direction node) =
      q.onNode bundle direction (p.onNode bundle direction node) := by
  have fold_insert : Pass.fold.onNode bundle direction (Pass.insert.onNode bundle direction node) =
      Pass.insert.onNode bundle direction (Pass.fold.onNode bundle direction node) := by
    cases direction <;> rcases node with _ | _ | ⟨_, _ | _ | _⟩ | _ | _ <;> rfl
  cases p <;> cases q <;> first | rfl | exact fold_insert | exact fold_insert.symm

theorem onNodes_cons (p : Pass) (ps : List Pass) (node : Node) :
    onNodes bundle direction (p :: ps) node = onNodes bundle direction ps (p.onNode bundle direction node) := rfl

theorem onNodes_comm (p : Pass) : ∀ (ps : List Pass) (node : Node),
    p.onNode bundle direction (onNodes bundle direction ps node) =
      onNodes bundle direction ps (p.onNode bundle direction node)
  | [], _ => rfl
  | q :: ps, node => by rw [onNodes_cons, onNodes_cons, onNodes_comm p ps, onNode_comm]

theorem onNode_onNodes_of_mem {p : Pass} : ∀ {ps : List Pass}, p ∈ ps → ∀ node : Node,
    p.onNode bundle direction (onNodes bundle direction ps node) = onNodes bundle direction ps node
  | q :: ps, hp, node => by
    rw [onNodes_cons]
    rcases List.mem_cons.1 hp with rfl | hp
    · rw [onNodes_comm, onNode_onNode]
    · exact onNode_onNodes_of_mem hp _

theorem onNodes_of_fixed {node : Node} : ∀ {ps : List Pass}, (∀ p ∈ ps, p.onNode bundle direction node = node) →
    onNodes bundle direction ps node = node
  | [], _ => rfl
  | p :: ps, h => by
    rw [onNodes_cons, h p List.mem_cons_self]
    exact onNodes_of_fixed fun q hq => h q (List.mem_cons_of_mem _ hq)

theorem onNodes_eq {ps : List Pass} (hi : .insert ∈ ps) (hf : .fold ∈ ps) (node : Node) :
    onNodes bundle direction ps node =
      Pass.fold.onNode bundle direction (Pass.insert.onNode bundle direction node) := by
  have hdone : ∀ p ∈ ps, p.onNode bundle direction
      (Pass.fold.onNode bundle direction (Pass.insert.onNode bundle direction node)) =
        Pass.fold.onNode bundle direction (Pass.insert.onNode bundle direction node) := by
    intro p _
    cases p with
    | insert => rw [onNode_comm, onNode_onNode]
    | fold => rw [onNode_onNode]
    | simplify => rfl
  rw [← onNodes_of_fixed hdone, ← onNodes_comm, ← onNodes_comm, onNode_onNodes_of_mem hi, onNode_onNodes_of_mem hf]

end Pass

section Runs

variable (bundle : Option Bundle) (direction : EffectiveDirection)

/-- **A pass over a file of plain messages is never refused**, and all messages stay plain. -/
theorem Pass.run_of_plain (p : Pass) {f : TemplateFile} (h : f.Plain) :
    p.run bundle direction f = (.ok (), p.leave bundle direction f) ∧ (p.leave bundle direction f).Plain := by
  cases p with
  | insert =>
    refine ⟨insertMessages_of_plain bundle h, fun m hm => ?_⟩
    obtain ⟨node, hnode, he⟩ := List.mem_map.1 ((TemplateFile.nodes_mapNodes _ f) ▸ hm)
    rcases node with _ | _ | ⟨id, _ | _ | _⟩ | _ | _ <;> cases he <;> exact h _ hnode
  | fold =>
    refine ⟨by rw [Pass.run, foldDirection_eq]; rfl, fun m hm => ?_⟩
    obtain ⟨node, hnode, he⟩ := List.mem_map.1 ((TemplateFile.nodes_mapNodes _ f) ▸ hm)
    cases direction <;> cases node <;> cases he <;> exact h _ hnode
  | simplify =>
    refine ⟨rfl, fun m hm => ?_⟩
    obtain ⟨t, ht, hm⟩ := TemplateFile.mem_nodes.1 hm
    obtain ⟨t', ht', rfl⟩ := List.mem_map.1 ht
    exact h m (TemplateFile.mem_nodes.2 ⟨t', ht', ((uncut_mem rfl).apply_mergeText t'.body).mp hm⟩)

theorem simplify_mapNodes (g : Node → Node) (f : TemplateFile) :
    simplify (f.mapNodes g) = f.mapBodies fun body => mergeText (body.map g) := by
  rw [simplify, TemplateFile.mapNodes, TemplateFile.mapBodies_mapBodies]

theorem simplify_mapNodes_leave (p : Pass) {g : Node → Node} (hg : ∀ text, g (.rawText text) = .rawText text)
    (f : TemplateFile) : simplify ((p.leave bundle direction f).mapNodes g) =
      simplify (f.mapNodes fun node => g (p.onNode bundle direction node)) := by
  cases p with
  | simplify =>
    rw [simplify_mapNodes, simplify_mapNodes, Pass.leave, simplify, TemplateFile.mapBodies_mapBodies]
    exact TemplateFile.mapBodies_congr (uncut_mergeText_map hg).apply_mergeText f
  | insert => rw [Pass.leave_insert, TemplateFile.mapNodes_mapNodes]
  | fold => rw [Pass.leave_fold, TemplateFile.mapNodes_mapNodes]

theorem runPasses_of_plain : ∀ (ps : List Pass) {f : TemplateFile}, f.Plain →
    runPasses bundle direction ps f = (.ok (), Pass.leaveAll bundle direction ps f)
  | [], _, _ => rfl
  | p :: ps, f, hf => by
    obtain ⟨hrun, hplain⟩ := p.run_of_plain bundle direction hf
    rw [runPasses, hrun]
    exact runPasses_of_plain ps hplain

/-- **A row of passes before a merge**: each place of a file holds what the row makes of its node, merged once. -/
theorem simplify_leaveAll : ∀ (ps : List Pass) (f : TemplateFile),
    simplify (Pass.leaveAll bundle direction ps f) = simplify (f.mapNodes (Pass.onNodes bundle direction ps))
  | [], f => by
    have h : Pass.onNodes bundle direction [] = id := rfl
    rw [h, TemplateFile.mapNodes_id]
    rfl
  | p :: ps, f => by
    have ih := simplify_leaveAll ps (p.leave bundle direction f)
    rw [simplify_mapNodes_leave bundle direction p (Pass.onNodes_rawText ps)] at ih
    exact ih

theorem runPasses_concat_simplify (ps : List Pass) {f : TemplateFile} (hf : f.Plain) :
    runPasses bundle direction (ps ++ [.simplify]) f =
      (.ok (), simplify (f.mapNodes (Pass.onNodes bundle direction ps))) := by
  rw [runPasses_of_plain bundle direction _ hf, ← simplify_leaveAll, Pass.leaveAll, List.foldl_append]
  rfl

/-- **Passes that insert and fold and end with a merge leave one tree**, in any order and however often each is made. -/
theorem runPasses_eq {ps : List Pass} (hi : .insert ∈ ps) (hf : .fold ∈ ps) (hs : ps.getLast? = some .simplify)
    {f : TemplateFile} (hp : f.Plain) :
    runPasses bundle direction ps f = runPasses bundle direction [.insert, .fold, .simplify] f := by
  obtain ⟨qs, rfl⟩ := List.getLast?_eq_some_iff.1 hs
  have hi' : Pass.insert ∈ qs := by simpa using hi
  have hf' : Pass.fold ∈ qs := by simpa using hf
  have hn : Pass.onNodes bundle direction qs = Pass.onNodes bundle direction [.insert, .fold] := by
    funext node
    rw [Pass.onNodes_eq hi' hf', Pass.onNodes_eq (by simp) (by simp)]
  rw [runPasses_concat_simplify bundle direction qs hp, hn, ← runPasses_concat_simplify bundle direction _ hp]
  rfl

theorem runPasses_simplify_early (ps qs : List Pass) {f : TemplateFile} (hp : f.Plain) :
    runPasses bundle direction (ps ++ .simplify :: (qs ++ [.simplify])) f =
      runPasses bundle direction (ps ++ (qs ++ [.simplify])) f := by
  have hn : Pass.onNodes bundle direction (ps ++ .simplify :: qs) = Pass.onNodes bundle direction (ps ++ qs) := by
    funext node
    rw [Pass.onNodes, Pass.onNodes, List.foldl_append, List.foldl_append, List.foldl_cons]
    rfl
  rw [← List.cons_append, ← List.append_assoc, ← List.append_assoc, runPasses_concat_simplify bundle direction _ hp, hn,
    runPasses_concat_simplify bundle direction _ hp]

theorem leave_leave (p : Pass) (f : TemplateFile) :
    p.leave bundle direction (p.leave bundle direction f) = p.leave bundle direction f := by
  cases p with
  | simplify => exact simplify_simplify f
  | insert => simp only [Pass.leave_insert, TemplateFile.mapNodes_mapNodes, Pass.onNode_onNode]
  | fold => simp only [Pass.leave_fold, TemplateFile.mapNodes_mapNodes, Pass.onNode_onNode]

theorem leave_insert_comm (p : Pass) (f : TemplateFile) :
    p.leave bundle direction (Pass.insert.leave bundle direction f) =
      Pass.insert.leave bundle direction (p.leave bundle direction f) := by
  cases p with
  | simplify =>
    have hkeep : ∀ node : Node, node.isRawText = false → (Pass.insert.onNode bundle direction node).isRawText = false := by
      intro node h
      rcases node with _ | _ | ⟨_, _ | _ | _⟩ | _ | _ <;> first | rfl | cases h
    rw [Pass.leave_insert, Pass.leave_insert, Pass.leave, Pass.leave, simplify_mapNodes, simplify, TemplateFile.mapNodes,
      TemplateFile.mapBodies_mapBodies]
    exact TemplateFile.mapBodies_congr (fun body => (map_mergeText (Pass.onNode_rawText .insert) hkeep body).symm) f
  | insert => rfl
  | fold =>
    simp only [Pass.leave_fold, Pass.leave_insert, TemplateFile.mapNodes_mapNodes]
    rw [show (fun node => Pass.fold.onNode bundle direction (Pass.insert.onNode bundle direction node)) =
      fun node => Pass.insert.onNode bundle direction (Pass.fold.onNode bundle direction node) from
        funext fun node => Pass.onNode_comm .fold .insert node]

/-- **The order of passes does not matter.**  Over a file of plain messages a row of passes that inserts, folds and ends
with a merge is never refused and leaves the tree that insertion, folding and merging leave.  Each pass is idempotent,
insertion commutes with every pass, and a merge made early changes nothing in the end. -/
theorem runPasses_normal {f : TemplateFile} (hp : f.Plain) :
    (∀ ps : List Pass, .insert ∈ ps → .fold ∈ ps → ps.getLast? = some .simplify →
      ∃ normal, runPasses bundle direction ps f = (.ok (), normal) ∧
        runPasses bundle direction [.insert, .fold, .simplify] f = (.ok (), normal)) ∧
    (∀ p : Pass, runPasses bundle direction [p, p] f = runPasses bundle direction [p] f) ∧
    (∀ p : Pass, runPasses bundle direction [.insert, p] f = runPasses bundle direction [p, .insert] f) ∧
    (∀ ps qs : List Pass, runPasses bundle direction (ps ++ .simplify :: (qs ++ [.simplify])) f =
      runPasses bundle direction (ps ++ (qs ++ [.simplify])) f) := by
  refine ⟨fun ps hi hf hs => ?_, fun p => ?_, fun p => ?_, fun ps qs => ?_⟩
  · refine ⟨Pass.leaveAll bundle direction ps f, runPasses_of_plain bundle direction ps hp, ?_⟩
    rw [← runPasses_eq bundle direction hi hf hs hp, runPasses_of_plain bundle direction ps hp]
  · rw [runPasses_of_plain bundle direction _ hp, runPasses_of_plain bundle direction _ hp]
    exact congrArg (Prod.mk _) (leave_leave bundle direction p f)
  · rw [runPasses_of_plain bundle direction _ hp, runPasses_of_plain bundle direction _ hp]
    exact congrArg (Prod.mk _) (leave_insert_comm bundle direction p f)
  · exact runPasses_simplify_early bundle direction ps qs hp

theorem runPasses_normal_welcome : TemplateFile.welcome.Plain ∧
    ∃ normal, runPasses none (.fixed .rtl) [.simplify, .fold, .insert, .fold, .simplify] .welcome = (.ok (), normal) ∧
      runPasses none (.fixed .rtl) [.insert, .fold, .simplify] .welcome = (.ok (), normal) := by
  have hp : TemplateFile.welcome.Plain := (findSome?_unsupported?_eq_none_iff _).1 rfl
  exact ⟨hp, (runPasses_normal none (.fixed .rtl) hp).1 _ (by decide) (by decide) rfl⟩

end Runs
end Stencil
