import Stencil.Compiler
/-!
# Main — the compiler as a program

Reads and writes the files of the system, prints the report and leaves with its status.
-/
namespace Stencil

/-- The refusal of the system.  The two errors about the type of a file differ in their number, which is negative where the
file could not even be opened. -/
def FileError.ofSystem (e : IO.Error) : FileError :=
  match e with
  | .noFileOrDirectory .. => .notFound
  | .inappropriateType _ code _ => if code = 20 ∨ code = -20 then .notADirectory else .isADirectory
  | e => .refused e.toString

instance : Storage IO where
  read path := do
    try pure (.ok (← IO.FS.readBinFile path))
    catch e => pure (.error (.ofSystem e))
  write path bytes := do
    try
      IO.FS.writeBinFile path bytes
      pure (.ok ())
    catch e => pure (.error (.ofSystem e))

end Stencil

def main (args : List String) : IO UInt32 := do
  let exit ← Stencil.Compiler.run args
  (← IO.getStdout).putStr exit.output
  pure exit.status
