/-!
# SourceBuffer — indented source text, line by line

A buffer is the text so far, the level of indentation and the string that one level adds to a line.  A block is a header
line, a body one level further in and a closing brace, and it closes whatever its body ends in.  `Script` is a program of
such writes, of which some may fail: a failure stops the rest of its body and of every body around it, and each block
around it still closes.
-/
namespace Stencil

structure SourceBuffer where
  indentation : String := ""
  level : Nat := 0
  text : String := ""
deriving Repr, DecidableEq, Inhabited

namespace SourceBuffer

/-- What a line starts with at the given level. -/
def margin (indentation : String) : Nat → String
  | 0 => ""
  | level + 1 => indentation ++ margin indentation level

/-- A line at the current level. -/
def line (b : SourceBuffer) (s : String) : SourceBuffer :=
  { b with text := b.text ++ margin b.indentation b.level ++ s ++ "\n" }

/-- An empty line, without indentation. -/
def blank (b : SourceBuffer) : SourceBuffer := { b with text := b.text ++ "\n" }

def indent (b : SourceBuffer) : SourceBuffer := { b with level := b.level + 1 }

/-- One level out; the outermost level stays. -/
def dedent (b : SourceBuffer) : SourceBuffer := { b with level := b.level - 1 }

/-- A block around a body, with the body's result. -/
def block {α : Type} (b : SourceBuffer) (header : String) (body : SourceBuffer → α × SourceBuffer) : α × SourceBuffer :=
  let inner := body (b.line (header ++ " \x7b")).indent
  (inner.1, inner.2.dedent.line "\x7d")

end SourceBuffer

/-- A program of writes.  `fail` writes nothing and stops the body that it is in. -/
inductive Script (ε : Type)
  | line (s : String)
  | blank
  | indent
  | dedent
  | block (header : String) (body : List (Script ε))
  | fail (cause : ε)

namespace Script

variable {ε : Type}

/-- How a program ended, and the results of the blocks that it closed, in the order in which they closed. -/
structure Result (ε : Type) where
  outcome : Except ε Unit := .ok ()
  closed : List (Except ε Unit) := []

mutual

def run : Script ε → SourceBuffer → Result ε × SourceBuffer
  | .line s, b => ({}, b.line s)
  | .blank, b => ({}, b.blank)
  | .indent, b => ({}, b.indent)
  | .dedent, b => ({}, b.dedent)
  | .block header body, b =>
    let r := b.block header fun b => runAll body b
    (⟨r.1.outcome, r.1.closed ++ [r.1.outcome]⟩, r.2)
  | .fail cause, b => (⟨.error cause, []⟩, b)

/-- Runs a body up to its first failure. -/
def runAll : List (Script ε) → SourceBuffer → Result ε × SourceBuffer
  | [], b => ({}, b)
  | s :: rest, b =>
    let first := run s b
    match first.1.outcome with
    | .error cause => (⟨.error cause, first.1.closed⟩, first.2)
    | .ok () =>
      let r := runAll rest first.2
      (⟨r.1.outcome, first.1.closed ++ r.1.closed⟩, r.2)

end

/-- The text that a program writes into an empty buffer. -/
def render (indentation : String) (body : List (Script ε)) : String := (runAll body { indentation }).2.text

end Script
end Stencil
