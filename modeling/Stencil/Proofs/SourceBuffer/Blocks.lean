import Stencil.Proofs.SourceBuffer.Steps
/-!
# Blocks — every block that a program starts is closed

Every step adds to the text and takes nothing back (`exists_text_foldl`), and a header that is made is followed by its
closing brace.  As long as no step between the two shifts the margin, the level afterwards is the one before and every line
stands where the blocks around it put it (`Balanced.enclosed`), whether the body was made to its end or not
(`blocks_close`).
-/
namespace Stencil
namespace Script

open SourceBuffer (margin)

variable {ε : Type} {l inner : List (Step ε)} {header : String}

/-! ## Level and text -/

theorem indentation_foldl (l : List (Step ε)) (b : SourceBuffer) :
    (l.foldl Step.apply b).indentation = b.indentation := by
  induction l generalizing b with
  | nil => rfl
  | cons s l ih =>
    rw [List.foldl_cons, ih]
    cases s <;> rfl

theorem exists_text_apply (s : Step ε) (b : SourceBuffer) : ∃ added, (s.apply b).text = b.text ++ added := by
  cases s with
  | line | starts | closes =>
    simp only [Step.apply, SourceBuffer.line, SourceBuffer.indent, SourceBuffer.dedent, String.append_assoc]
    exact ⟨_, rfl⟩
  | blank => exact ⟨"\n", rfl⟩
  | indent | dedent | fails => exact ⟨"", String.append_empty.symm⟩

/-- Nothing that was written is taken back. -/
theorem exists_text_foldl (l : List (Step ε)) (b : SourceBuffer) :
    ∃ added, (l.foldl Step.apply b).text = b.text ++ added := by
  induction l generalizing b with
  | nil => exact ⟨"", String.append_empty.symm⟩
  | cons s l ih =>
    obtain ⟨added, hadded⟩ := exists_text_apply s b
    obtain ⟨rest, hrest⟩ := ih (s.apply b)
    exact ⟨added ++ rest, by rw [List.foldl_cons, hrest, hadded, String.append_assoc]⟩

/-- No step changes the level, but for the headers and closing braces of blocks. -/
def Unshifted (l : List (Step ε)) : Prop := ∀ s ∈ l, s.isShift = false

instance (l : List (Step ε)) : Decidable (Unshifted l) := inferInstanceAs (Decidable (∀ s ∈ l, s.isShift = false))

/-- The text of steps without shifts: a line is indented by the level that they start at and by the blocks that are open
around it, of which there are `n` at the start. -/
def layout (indentation : String) (level : Nat) : Nat → List (Step ε) → String
  | _, [] => ""
  | n, .line s :: rest => margin indentation (level + n) ++ s ++ "\n" ++ layout indentation level n rest
  | n, .blank :: rest => "\n" ++ layout indentation level n rest
  | n, .starts header :: rest =>
    margin indentation (level + n) ++ (header ++ " \x7b") ++ "\n" ++ layout indentation level (n + 1) rest
  | n, .closes :: rest => margin indentation (level + (n - 1)) ++ "\x7d" ++ "\n" ++ layout indentation level (n - 1) rest
  | n, .indent :: rest | n, .dedent :: rest | n, .fails _ :: rest => layout indentation level n rest

/-- **A block whose body is not shifted**: header and closing brace stand at the level before it, what is between them one
level further in and as deep again as the blocks within, and the level afterwards is the one before. -/
structure Enclosed (header : String) (inner : List (Step ε)) (b b' : SourceBuffer) : Prop where
  level : b'.level = b.level
  text : b'.text = b.text ++ (margin b.indentation b.level ++ (header ++ " \x7b") ++ "\n" ++
    layout b.indentation b.level 1 inner ++ margin b.indentation b.level ++ "\x7d" ++ "\n")

theorem Unshifted.block (h : Unshifted inner) (header : String) :
    Unshifted (.starts header :: (inner ++ [.closes])) := by
  intro s hs
  rcases List.mem_cons.1 hs with rfl | hs
  · rfl
  · rcases List.mem_append.1 hs with hs | hs
    · exact h s hs
    · rw [List.mem_singleton.1 hs]
      rfl

theorem layout_append (indentation : String) (level n : Nat) (l t : List (Step ε)) :
    layout indentation level n (l ++ t) =
      layout indentation level n l ++ layout indentation level (blocksAfter n l) t := by
  induction l generalizing n with
  | nil => exact String.empty_append.symm
  | cons s l ih => cases s <;> simp only [List.cons_append, layout, ih, String.append_assoc] <;> rfl

theorem layout_block (h : Balanced inner) (indentation : String) (level n : Nat) :
    layout indentation level n (.starts header :: (inner ++ [.closes])) =
      margin indentation (level + n) ++ (header ++ " \x7b") ++ "\n" ++ layout indentation level (n + 1) inner ++
        margin indentation (level + n) ++ "\x7d" ++ "\n" := by
  rw [layout, layout_append, h.blocksAfter_eq, layout, layout, Nat.add_sub_cancel]
  simp only [String.append_assoc, String.append_empty]

theorem level_foldl (hshift : Unshifted l) (b : SourceBuffer) :
    (l.foldl Step.apply b).level = blocksAfter b.level l := by
  induction l generalizing b with
  | nil => rfl
  | cons s l ih =>
    obtain ⟨hs, hl⟩ := List.forall_mem_cons.1 hshift
    rw [List.foldl_cons, ih hl]
    cases s with
    | indent | dedent => cases hs
    | line | blank | starts | closes | fails => rfl

namespace Balanced

theorem level_foldl_eq (h : Balanced l) (hshift : Unshifted l) (b : SourceBuffer) :
    (l.foldl Step.apply b).level = b.level := by
  rw [level_foldl hshift, h.blocksAfter_eq]

/-- One block, if its body is laid out with one block more around it. -/
theorem text_block (h : Balanced inner) (hshift : Unshifted inner) {level n : Nat} {b : SourceBuffer}
    (hb : b.level = level + n) (hbody : ∀ {b : SourceBuffer}, b.level = level + (n + 1) →
      (inner.foldl Step.apply b).text = b.text ++ layout b.indentation level (n + 1) inner) :
    ((.starts header :: (inner ++ [.closes])).foldl Step.apply b).text =
      b.text ++ layout b.indentation level n (.starts header :: (inner ++ [.closes])) := by
  let opened := (b.line (header ++ " \x7b")).indent
  let filled := inner.foldl Step.apply opened
  have hopened : opened.level = level + (n + 1) := congrArg (· + 1) hb
  have hfilled : filled.dedent.level = level + n := congrArg (· - 1) ((h.level_foldl_eq hshift opened).trans hopened)
  have hindentation : filled.dedent.indentation = b.indentation := indentation_foldl inner opened
  have hfold : (.starts header :: (inner ++ [.closes])).foldl Step.apply b = filled.dedent.line "\x7d" := by
    rw [List.foldl_cons, List.foldl_append]
    rfl
  have hbrace : (filled.dedent.line "\x7d").text =
      filled.text ++ margin b.indentation (level + n) ++ "\x7d" ++ "\n" := by
    rw [SourceBuffer.line, hfilled, hindentation]
    rfl
  have hheader : opened.text = b.text ++ margin b.indentation (level + n) ++ (header ++ " \x7b") ++ "\n" := by
    rw [← hb]
    rfl
  rw [hfold, hbrace, hbody hopened, hheader, layout_block h]
  simp only [String.append_assoc]
  rfl

/-- **A balanced row without shifts is laid out by the blocks around each line.** -/
theorem text_foldl (h : Balanced l) (hshift : Unshifted l) {level n : Nat} {b : SourceBuffer}
    (hb : b.level = level + n) : (l.foldl Step.apply b).text = b.text ++ layout b.indentation level n l := by
  induction h generalizing n b with
  | nil => exact String.append_empty.symm
  | @step s rest hs _ ih =>
    obtain ⟨hfirst, hrest⟩ := List.forall_mem_cons.1 hshift
    rw [List.foldl_cons]
    cases s with
    | starts | closes => cases hs
    | indent | dedent => cases hfirst
    | fails => exact ih hrest hb
    | line s =>
      rw [ih hrest (show (Step.apply b (.line s)).level = level + n from hb)]
      simp only [Step.apply, SourceBuffer.line, hb, layout, String.append_assoc]
    | blank =>
      rw [ih hrest (show (Step.apply b .blank).level = level + n from hb)]
      simp only [Step.apply, SourceBuffer.blank, layout, String.append_assoc]
  | @block header inner rest hinner _ ihinner ihrest =>
    -- The block is back at its level when it closes, so the steps behind it start as it did.
    obtain ⟨-, hshift⟩ := List.forall_mem_cons.1 hshift
    obtain ⟨hin, hshift⟩ := List.forall_mem_append.1 hshift
    obtain ⟨-, hafter⟩ := List.forall_mem_cons.1 hshift
    have hblock : Balanced (.starts header :: (inner ++ [.closes])) := .block hinner .nil
    have hclosed := (hblock.level_foldl_eq (Unshifted.block hin header) b).trans hb
    rw [block_append, List.foldl_append, ihrest hafter hclosed, hinner.text_block hin hb (ihinner hin),
      indentation_foldl, layout_append, hblock.blocksAfter_eq, String.append_assoc]

theorem enclosed (h : Balanced inner) (hshift : Unshifted inner) (header : String) (b : SourceBuffer) :
    Enclosed header inner b ((.starts header :: (inner ++ [.closes])).foldl Step.apply b) := by
  have hblock : Balanced (.starts header :: (inner ++ [.closes])) := .block h .nil
  refine ⟨hblock.level_foldl_eq (hshift.block header) b, ?_⟩
  rw [hblock.text_foldl (hshift.block header) (Nat.add_zero b.level).symm, layout_block h]
  rfl

end Balanced

/-! ## Programs -/

/-- **Every block closes.**  A program makes the steps in front of its first failure and then closes what is open, and each
operation only adds to the text.  A block that starts has one closing brace of its own, with whole blocks in between, and
it ends as its body does; and where no step shifts the margin within, it is laid out as a block and leaves the level as
it was, whether its body fails or not. -/
theorem blocks_close (body : List (Script ε)) (b : SourceBuffer) :
    let made := executed (stepsAll body)
    runAll body b = (⟨outcome (stepsAll body), results (stepsAll body)⟩, made.foldl Step.apply b) ∧
      (∀ before operation after, made = before ++ operation ++ after → ∃ added,
        ((before ++ operation).foldl Step.apply b).text = (before.foldl Step.apply b).text ++ added) ∧
      (∀ before header rest, made = before ++ .starts header :: rest →
        ∃ inner after, rest = inner ++ .closes :: after ∧ Balanced inner ∧
          (∀ inner' after', rest = inner' ++ .closes :: after' → Balanced inner' → inner' = inner) ∧
          (Unshifted inner → Enclosed header inner (before.foldl Step.apply b)
            ((before ++ .starts header :: (inner ++ [.closes])).foldl Step.apply b))) ∧
      ∀ header b', (run (.block header body) b').1.outcome = (runAll body b).1.outcome := by
  refine ⟨runAll_eq body b, fun before operation after _ => ?_, fun before header rest hmade => ?_, fun header b' => ?_⟩
  · rw [List.foldl_append]
    exact exists_text_foldl operation _
  · obtain ⟨inner, after, hrest, hinner⟩ := (balanced_stepsAll body).executed.exists_close hmade
    refine ⟨inner, after, hrest, hinner, fun inner' after' hrest' hinner' => ?_, fun hshift => ?_⟩
    · exact hinner'.close_unique hinner (hrest'.symm.trans hrest)
    · rw [List.foldl_append]
      exact hinner.enclosed hshift header _
  · rw [run_eq, runAll_eq, steps, outcome_block]

/-- Two blocks, one in the other, and a failure in the inner one in front of a shift. -/
def halfDone : List (Script String) :=
  [.block "a" [.line "p", .block "b" [.line "q", .fail "gone", .indent], .line "r"], .line "s"]

/-- Both blocks close, and the outer one is laid out as if nothing had happened. -/
theorem blocks_close_halfDone : ∃ b',
    runAll halfDone ⟨"  ", 1, "x\n"⟩ = (⟨.error "gone", [.error "gone", .error "gone"]⟩, b') ∧
    Enclosed "a" ([.line "p", .starts "b", .line "q", .closes] : List (Step String)) ⟨"  ", 1, "x\n"⟩ b' ∧
    b'.text = "x\n  a \x7b\n    p\n    b \x7b\n      q\n    \x7d\n  \x7d\n" := by
  obtain ⟨hrun, -, hblocks, -⟩ := blocks_close halfDone ⟨"  ", 1, "x\n"⟩
  obtain ⟨inner, after, hrest, hinner, hunique, henclosed⟩ := hblocks [] "a" _ rfl
  obtain rfl : [.line "p", .starts "b", .line "q", .closes] = inner :=
    hunique _ [] rfl (.step rfl (.block (.step rfl .nil) .nil))
  exact ⟨_, hrun, henclosed (by decide), by decide⟩

end Script
end Stencil
