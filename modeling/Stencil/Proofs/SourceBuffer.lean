import Stencil.SourceBuffer
/-!
# SourceBuffer — what is written does not depend on what was written before

A program does the same on a buffer with other text in front of it: it ends in the same way, closes the same blocks and
writes the same text behind the old one (`run_prepend`, `runAll_prepend`).
-/
namespace Stencil

/-- The buffer with more text in front of its own. -/
def SourceBuffer.prepend (front : String) (b : SourceBuffer) : SourceBuffer := { b with text := front ++ b.text }

namespace SourceBuffer

variable (front : String) (b : SourceBuffer)

theorem line_prepend (s : String) : (b.prepend front).line s = (b.line s).prepend front := by
  simp only [line, prepend, String.append_assoc]

theorem blank_prepend : (b.prepend front).blank = b.blank.prepend front := by
  simp only [blank, prepend, String.append_assoc]

theorem indent_prepend : (b.prepend front).indent = b.indent.prepend front := rfl

theorem dedent_prepend : (b.prepend front).dedent = b.dedent.prepend front := rfl

end SourceBuffer

namespace Script

variable {ε : Type} (front : String)

mutual

theorem run_prepend : ∀ (s : Script ε) (b : SourceBuffer),
    run s (b.prepend front) = ((run s b).1, (run s b).2.prepend front)
  | .line s, b => by rw [run, run, SourceBuffer.line_prepend]
  | .blank, b => by rw [run, run, SourceBuffer.blank_prepend]
  | .indent, b => by rw [run, run, SourceBuffer.indent_prepend]
  | .dedent, b => by rw [run, run, SourceBuffer.dedent_prepend]
  | .block header body, b => by
    have hbody := runAll_prepend body (b.line (header ++ " \x7b")).indent
    simp only [run, SourceBuffer.block, SourceBuffer.line_prepend, SourceBuffer.indent_prepend, hbody,
      SourceBuffer.dedent_prepend]
  | .fail cause, b => by rw [run, run]

theorem runAll_prepend : ∀ (body : List (Script ε)) (b : SourceBuffer),
    runAll body (b.prepend front) = ((runAll body b).1, (runAll body b).2.prepend front)
  | [], b => by rw [runAll, runAll]
  | s :: rest, b => by
    have hfirst := run_prepend s b
    have hrest := runAll_prepend rest (run s b).2
    rw [runAll, runAll]
    simp only [hfirst]
    cases (run s b).1.outcome with
    | error cause => rfl
    | ok _ => simp only [hrest]

end

end Script
end Stencil
