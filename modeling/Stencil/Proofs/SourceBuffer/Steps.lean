import Stencil.SourceBuffer
/-!
# Steps — a program of writes as the steps that it makes

A program is a row of steps, and a block stands in it as its header, the steps of its body and a closing brace.  What is
made of them are the steps before the first failure, and then the closing braces of the blocks that are open there
(`executed`).  Running the program makes these steps one after the other (`runAll_eq`), and they are balanced
(`Balanced.executed`): every header has one closing brace of its own (`Balanced.close_unique`), inner blocks first.
-/
namespace Stencil
namespace Script

inductive Step (ε : Type)
  | line (s : String)
  | blank
  | indent
  | dedent
  | starts (header : String)
  | closes
  | fails (cause : ε)
deriving Repr, DecidableEq

variable {ε : Type}

namespace Step

def apply (b : SourceBuffer) : Step ε → SourceBuffer
  | .line s => b.line s
  | .blank => b.blank
  | .indent => b.indent
  | .dedent => b.dedent
  | .starts header => (b.line (header ++ " \x7b")).indent
  | .closes => b.dedent.line "\x7d"
  | .fails _ => b

def cause? : Step ε → Option ε
  | .fails cause => some cause
  | _ => none

/-- The number of open blocks after the step. -/
def blocks (n : Nat) : Step ε → Nat
  | .starts _ => n + 1
  | .closes => n - 1
  | _ => n

def isClose : Step ε → Bool
  | .closes => true
  | _ => false

def isPlain : Step ε → Bool
  | .starts _ | .closes => false
  | _ => true

/-- An explicit change of the level. -/
def isShift : Step ε → Bool
  | .indent | .dedent => true
  | _ => false

end Step

mutual

/-- The steps of a program as they stand in it, whether they are made or not. -/
def steps : Script ε → List (Step ε)
  | .line s => [.line s]
  | .blank => [.blank]
  | .indent => [.indent]
  | .dedent => [.dedent]
  | .block header body => .starts header :: (stepsAll body ++ [.closes])
  | .fail cause => [.fails cause]

def stepsAll : List (Script ε) → List (Step ε)
  | [] => []
  | s :: rest => steps s ++ stepsAll rest

end

/-- The number of open blocks after a row of steps, `n` before it. -/
def blocksAfter (n : Nat) (l : List (Step ε)) : Nat := l.foldl Step.blocks n

/-- The steps before the first failure. -/
def upToFailure (l : List (Step ε)) : List (Step ε) := l.takeWhile fun s => s.cause?.isNone

/-- **The steps that are made**: those before the first failure, and a closing brace for each block that is open there. -/
def executed (l : List (Step ε)) : List (Step ε) :=
  upToFailure l ++ List.replicate (blocksAfter 0 (upToFailure l)) .closes

/-- The first failure. -/
def outcome (l : List (Step ε)) : Except ε Unit :=
  match l.findSome? Step.cause? with
  | none => .ok ()
  | some cause => .error cause

/-- The results of the blocks as they close: one that is closed before the first failure has no failure in its body, and
those that are open there fail with it. -/
def results (l : List (Step ε)) : List (Except ε Unit) :=
  List.replicate ((upToFailure l).countP Step.isClose) (.ok ()) ++
    List.replicate (blocksAfter 0 (upToFailure l)) (outcome l)

/-- Every header has a closing brace behind it, with whole blocks between the two. -/
inductive Balanced : List (Step ε) → Prop
  | nil : Balanced []
  | step {s : Step ε} {rest : List (Step ε)} (hs : s.isPlain = true) : Balanced rest → Balanced (s :: rest)
  | block {header : String} {inner rest : List (Step ε)} :
      Balanced inner → Balanced rest → Balanced (.starts header :: (inner ++ .closes :: rest))

variable {l t p inner : List (Step ε)} {header : String} {cause : ε}

theorem block_append (header : String) (inner rest : List (Step ε)) :
    Step.starts header :: (inner ++ .closes :: rest) = .starts header :: (inner ++ [.closes]) ++ rest := by
  rw [List.cons_append, List.append_assoc, List.singleton_append]

/-- A place behind a header is in front of its closing brace or behind it. -/
theorem split_block {q rest : List (Step ε)} (h : p ++ q = inner ++ .closes :: rest) :
    (∃ u, inner = p ++ u ∧ q = u ++ .closes :: rest) ∨ ∃ u, p = inner ++ .closes :: u ∧ rest = u ++ q := by
  obtain ⟨u, hu, hq⟩ | ⟨u, hp, hu⟩ := List.append_eq_append_iff.1 h
  · exact .inl ⟨u, hu, hq⟩
  · cases u with
    | nil =>
      rw [List.append_nil] at hp
      exact .inl ⟨[], by rw [hp, List.append_nil], hu.symm⟩
    | cons s u =>
      rw [List.cons_append, List.cons.injEq] at hu
      obtain ⟨rfl, hrest⟩ := hu
      exact .inr ⟨u, hp, hrest⟩

/-! ## Open blocks -/

theorem blocksAfter_append (n : Nat) (l t : List (Step ε)) :
    blocksAfter n (l ++ t) = blocksAfter (blocksAfter n l) t := List.foldl_append

theorem blocksAfter_starts (n : Nat) (header : String) (l : List (Step ε)) :
    blocksAfter n (.starts header :: l) = blocksAfter (n + 1) l := rfl

theorem blocksAfter_closes (n : Nat) (l : List (Step ε)) : blocksAfter n (.closes :: l) = blocksAfter (n - 1) l := rfl

theorem blocksAfter_plain {s : Step ε} (hs : s.isPlain = true) (n : Nat) (l : List (Step ε)) :
    blocksAfter n (s :: l) = blocksAfter n l := by
  cases s with
  | starts | closes => cases hs
  | line | blank | indent | dedent | fails => rfl

namespace Balanced

theorem append (hl : Balanced l) (ht : Balanced t) : Balanced (l ++ t) := by
  induction hl with
  | nil => exact ht
  | step hs _ ih => exact .step hs ih
  | block hinner _ _ ih =>
    rw [List.cons_append, List.append_assoc]
    exact .block hinner ih

theorem blocksAfter_eq (h : Balanced l) (n : Nat) : blocksAfter n l = n := by
  induction h generalizing n with
  | nil => rfl
  | step hs _ ih => rw [blocksAfter_plain hs, ih]
  | block _ _ hinner hrest =>
    rw [blocksAfter_starts, blocksAfter_append, hinner, blocksAfter_closes, hrest, Nat.add_sub_cancel]

/-- No block from before is closed on the way through a balanced row. -/
theorem blocksAfter_prefix (h : Balanced l) (hp : p <+: l) (n : Nat) : blocksAfter n p = n + blocksAfter 0 p := by
  induction h generalizing p n with
  | nil =>
    rw [List.prefix_nil] at hp
    subst hp
    rfl
  | step hs _ ih =>
    cases p with
    | nil => rfl
    | cons s p =>
      obtain ⟨rfl, hp'⟩ := List.cons_prefix_cons.1 hp
      rw [blocksAfter_plain hs, blocksAfter_plain hs, ih hp']
  | @block header inner rest hbalanced _ hinner hrest =>
    cases p with
    | nil => rfl
    | cons s p =>
      obtain ⟨rfl, q, hq⟩ := List.cons_prefix_cons.1 hp
      rw [blocksAfter_starts, blocksAfter_starts]
      -- The prefix ends within the block, which is then open, or behind it, where it is closed again.
      obtain ⟨u, hu, -⟩ | ⟨u, rfl, hu⟩ := split_block hq
      · have hin := fun m => hinner ⟨u, hu.symm⟩ m
        rw [hin (n + 1), hin (0 + 1)]
        omega
      · have hafter := hrest ⟨q, hu.symm⟩ n
        rw [blocksAfter_append, blocksAfter_append, hbalanced.blocksAfter_eq, hbalanced.blocksAfter_eq,
          blocksAfter_closes, blocksAfter_closes]
        exact hafter

/-- A header has a closing brace in the same row. -/
theorem exists_close (h : Balanced l) : ∀ {before rest : List (Step ε)}, l = before ++ .starts header :: rest →
    ∃ inner after, rest = inner ++ .closes :: after ∧ Balanced inner := by
  induction h with
  | nil =>
    intro before rest hl
    exact absurd hl.symm (List.append_ne_nil_of_right_ne_nil _ (List.cons_ne_nil _ _))
  | step hs _ ih =>
    intro before rest hl
    cases before with
    | nil =>
      rw [List.nil_append, List.cons.injEq] at hl
      rw [hl.1] at hs
      cases hs
    | cons s before => exact ih (List.cons.inj hl).2
  | @block _ inner after hinner _ ihinner ihafter =>
    intro before rest hl
    cases before with
    | nil => exact ⟨inner, after, (List.cons.inj hl).2.symm, hinner⟩
    | cons s before =>
      obtain ⟨u, hu, hrest⟩ | ⟨u, -, hu⟩ := split_block (List.cons.inj hl).2.symm
      · cases u with
        | nil => cases (List.cons.inj hrest).1
        | cons v u =>
          rw [List.cons_append, List.cons.injEq] at hrest
          obtain ⟨rfl, rfl⟩ := hrest
          obtain ⟨inner', after', rfl, hinner'⟩ := ihinner hu
          exact ⟨inner', after' ++ .closes :: after, by rw [List.append_assoc, List.cons_append], hinner'⟩
      · exact ihafter hu

/-- Behind whole blocks no brace closes anything that is still within whole blocks. -/
theorem not_prefix (hl : Balanced l) (ht : Balanced t) (u : List (Step ε)) : t ≠ l ++ .closes :: u := by
  rintro rfl
  have hprefix : l ++ [.closes] <+: l ++ .closes :: u := ⟨u, by rw [List.append_assoc, List.singleton_append]⟩
  have hone := ht.blocksAfter_prefix hprefix 1
  rw [blocksAfter_append, hl.blocksAfter_eq] at hone
  exact absurd hone (Nat.ne_of_lt (Nat.lt_add_right _ Nat.zero_lt_one))

/-- The closing brace of a header is the only one with nothing but whole blocks in front of it. -/
theorem close_unique {inner' after after' : List (Step ε)} (h : Balanced inner) (h' : Balanced inner')
    (heq : inner ++ .closes :: after = inner' ++ .closes :: after') : inner = inner' := by
  obtain ⟨u, hu, hrest⟩ | ⟨u, hu, -⟩ := split_block heq
  · cases u with
    | nil => rw [hu, List.append_nil]
    | cons v u =>
      obtain rfl := (List.cons.inj hrest).1
      exact absurd hu (h.not_prefix h' u)
  · exact absurd hu (h'.not_prefix h u)

end Balanced

mutual

theorem balanced_steps : ∀ s : Script ε, Balanced (steps s)
  | .line _ | .blank | .indent | .dedent | .fail _ => .step rfl .nil
  | .block _ body => .block (balanced_stepsAll body) .nil

theorem balanced_stepsAll : ∀ body : List (Script ε), Balanced (stepsAll body)
  | [] => .nil
  | s :: rest => (balanced_steps s).append (balanced_stepsAll rest)

end

/-! ## Steps that are made -/

theorem outcome_eq_ok_iff : outcome l = .ok () ↔ ∀ s ∈ l, s.cause? = none := by
  rw [← List.findSome?_eq_none_iff, outcome]
  cases l.findSome? Step.cause? <;> simp

theorem exists_of_outcome_eq_error (h : outcome l = .error cause) :
    ∃ before s after, l = before ++ s :: after ∧ s.cause? = some cause ∧ ∀ s ∈ before, s.cause? = none := by
  unfold outcome at h
  split at h
  · cases h
  · next found hfound =>
    cases h
    exact List.findSome?_eq_some_iff.1 hfound

theorem outcome_append_of_ok (h : outcome l = .ok ()) (t : List (Step ε)) : outcome (l ++ t) = outcome t := by
  have hnone := List.findSome?_eq_none_iff.2 (outcome_eq_ok_iff.1 h)
  rw [outcome, List.findSome?_append, hnone, Option.none_or]
  rfl

theorem outcome_append_of_error (h : outcome l = .error cause) (t : List (Step ε)) :
    outcome (l ++ t) = .error cause := by
  obtain ⟨before, s, after, rfl, hs, hbefore⟩ := exists_of_outcome_eq_error h
  have hfound : (before ++ s :: after ++ t).findSome? Step.cause? = some cause :=
    List.findSome?_eq_some_iff.2 ⟨before, s, after ++ t, by rw [List.append_assoc, List.cons_append], hs, hbefore⟩
  rw [outcome, hfound]

theorem upToFailure_append_of_ok (h : outcome l = .ok ()) (t : List (Step ε)) :
    upToFailure (l ++ t) = l ++ upToFailure t :=
  List.takeWhile_append_of_pos fun s hs => by rw [outcome_eq_ok_iff.1 h s hs, Option.isNone_none]

theorem upToFailure_append_of_error (h : outcome l = .error cause) (t : List (Step ε)) :
    upToFailure (l ++ t) = upToFailure l := by
  obtain ⟨before, s, after, rfl, hs, hbefore⟩ := exists_of_outcome_eq_error h
  have hcut : ∀ after : List (Step ε), upToFailure (before ++ s :: after) = before := by
    intro after
    rw [upToFailure_append_of_ok (outcome_eq_ok_iff.2 hbefore), upToFailure, List.takeWhile_cons_of_neg (by simp [hs]),
      List.append_nil]
  rw [List.append_assoc, List.cons_append, hcut, hcut]

theorem upToFailure_of_ok (h : outcome l = .ok ()) : upToFailure l = l := by
  have happend := upToFailure_append_of_ok h []
  rwa [List.append_nil, show upToFailure ([] : List (Step ε)) = [] from rfl, List.append_nil] at happend

theorem outcome_starts (header : String) (l : List (Step ε)) : outcome (.starts header :: l) = outcome l := rfl

theorem outcome_block (header : String) (l : List (Step ε)) :
    outcome (.starts header :: (l ++ [.closes])) = outcome l := by
  rw [outcome_starts]
  cases h : outcome l with
  | error cause => rw [outcome_append_of_error h]
  | ok _ => rw [outcome_append_of_ok h]; rfl

theorem upToFailure_starts (header : String) (l : List (Step ε)) :
    upToFailure (.starts header :: l) = .starts header :: upToFailure l := rfl

/-! ## Rows of steps put together -/

theorem executed_append_of_ok (hl : Balanced l) (h : outcome l = .ok ()) (t : List (Step ε)) :
    executed (l ++ t) = l ++ executed t := by
  rw [executed, upToFailure_append_of_ok h, blocksAfter_append, hl.blocksAfter_eq, List.append_assoc]
  rfl

theorem executed_append_of_error (h : outcome l = .error cause) (t : List (Step ε)) :
    executed (l ++ t) = executed l := by
  rw [executed, executed, upToFailure_append_of_error h]

theorem executed_of_ok (hl : Balanced l) (h : outcome l = .ok ()) : executed l = l := by
  rw [executed, upToFailure_of_ok h, hl.blocksAfter_eq, List.replicate_zero, List.append_nil]

theorem blocksAfter_upToFailure (hl : Balanced l) (n : Nat) :
    blocksAfter n (upToFailure l) = n + blocksAfter 0 (upToFailure l) :=
  hl.blocksAfter_prefix (List.takeWhile_prefix _) n

theorem executed_block (hl : Balanced l) (header : String) :
    executed (.starts header :: (l ++ [.closes])) = .starts header :: (executed l ++ [.closes]) := by
  cases h : outcome l with
  | ok _ => rw [executed_of_ok (.block hl .nil) (by rw [outcome_block, h]), executed_of_ok hl h]
  | error cause =>
    rw [executed, upToFailure_starts, upToFailure_append_of_error h, blocksAfter_starts, blocksAfter_upToFailure hl,
      Nat.add_comm, List.replicate_succ', executed, List.cons_append, List.append_assoc]

theorem results_of_ok (hl : Balanced l) (h : outcome l = .ok ()) :
    results l = List.replicate (l.countP Step.isClose) (.ok ()) := by
  rw [results, upToFailure_of_ok h, hl.blocksAfter_eq, List.replicate_zero, List.append_nil]

theorem results_append_of_ok (hl : Balanced l) (h : outcome l = .ok ()) (t : List (Step ε)) :
    results (l ++ t) = results l ++ results t := by
  rw [results_of_ok hl h, results, results, upToFailure_append_of_ok h, outcome_append_of_ok h, blocksAfter_append,
    hl.blocksAfter_eq, List.countP_append, ← List.replicate_append_replicate, List.append_assoc]

theorem results_append_of_error (h : outcome l = .error cause) (t : List (Step ε)) :
    results (l ++ t) = results l := by
  rw [results, results, upToFailure_append_of_error h, outcome_append_of_error h, h]

theorem results_block (hl : Balanced l) (header : String) :
    results (.starts header :: (l ++ [.closes])) = results l ++ [outcome l] := by
  cases h : outcome l with
  | ok _ =>
    have hcount : (Step.starts header :: (l ++ [.closes])).countP Step.isClose = l.countP Step.isClose + 1 := by
      rw [List.countP_cons_of_neg Bool.false_ne_true, List.countP_append]
      rfl
    rw [results_of_ok (.block hl .nil) (by rw [outcome_block, h]), results_of_ok hl h, hcount, List.replicate_succ']
  | error cause =>
    rw [results, outcome_block, upToFailure_starts, upToFailure_append_of_error h, blocksAfter_starts,
      blocksAfter_upToFailure hl, List.countP_cons_of_neg Bool.false_ne_true, Nat.add_comm, List.replicate_succ',
      ← List.append_assoc, h, results, h]

theorem Balanced.executed (h : Balanced l) : Balanced (executed l) := by
  induction h with
  | nil => exact .nil
  | @step s rest hs _ ih =>
    have hfirst : Balanced [s] := .step hs .nil
    cases hout : outcome [s] with
    | error cause =>
      rw [← List.singleton_append, executed_append_of_error hout]
      cases s with
      | fails => exact .nil
      | starts | closes => cases hs
      | line | blank | indent | dedent => cases hout
    | ok _ =>
      rw [← List.singleton_append, executed_append_of_ok hfirst hout]
      exact hfirst.append ih
  | @block header inner rest hinner _ ihinner ihrest =>
    have hblock : Balanced (.starts header :: (inner ++ [.closes])) := .block hinner .nil
    have hout := outcome_block header inner
    rw [block_append]
    cases h : outcome inner with
    | error cause =>
      rw [executed_append_of_error (hout.trans h), executed_block hinner]
      exact .block ihinner .nil
    | ok _ =>
      rw [executed_append_of_ok hblock (hout.trans h)]
      exact hblock.append ihrest

/-! ## Running -/

mutual

/-- **An operation makes its steps**, and ends with its first failure. -/
theorem run_eq : ∀ (s : Script ε) (b : SourceBuffer), run s b =
    (⟨outcome (steps s), results (steps s)⟩, (executed (steps s)).foldl Step.apply b)
  | .line _, _ | .blank, _ | .indent, _ | .dedent, _ | .fail _, _ => rfl
  | .block header body, b => by
    have hbody := runAll_eq body (b.line (header ++ " \x7b")).indent
    have hbalanced := balanced_stepsAll body
    rw [run, SourceBuffer.block, hbody, steps, outcome_block, results_block hbalanced, executed_block hbalanced,
      List.foldl_cons, List.foldl_append]
    rfl

theorem runAll_eq : ∀ (body : List (Script ε)) (b : SourceBuffer), runAll body b =
    (⟨outcome (stepsAll body), results (stepsAll body)⟩, (executed (stepsAll body)).foldl Step.apply b)
  | [], _ => rfl
  | s :: rest, b => by
    have hbalanced := balanced_steps s
    rw [runAll, run_eq s b, stepsAll]
    cases h : outcome (steps s) with
    | error cause =>
      rw [outcome_append_of_error h, results_append_of_error h, executed_append_of_error h]
    | ok _ =>
      -- Without a failure all steps of `s` are made, and no block of them stays open for the rest.
      have hrest := runAll_eq rest ((steps s).foldl Step.apply b)
      rw [outcome_append_of_ok h, results_append_of_ok hbalanced h, executed_append_of_ok hbalanced h,
        executed_of_ok hbalanced h, List.foldl_append]
      simp only [hrest]

end

end Script
end Stencil
