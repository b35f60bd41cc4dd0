/-!
# Storage — files by path

Whatever runs the compiler gives it two ways to reach a file: read its bytes, or put bytes in their place.  Everything
that touches files is written over this class, so that it runs on a disk and is reasoned about on a value.
-/
namespace Stencil

/-- Why a file could not be read or written. -/
inductive FileError
  | notFound
  | notADirectory
  | isADirectory
  | notUtf8
  /-- Any other refusal, in the words of the system. -/
  | refused (details : String)
deriving Repr, DecidableEq

def FileError.message : FileError → String
  | .notFound => "No such file or directory (os error 2)"
  | .notADirectory => "Not a directory (os error 20)"
  | .isADirectory => "Is a directory (os error 21)"
  | .notUtf8 => "stream did not contain valid UTF-8"
  | .refused details => details

class Storage (m : Type → Type) where
  /-- The bytes of a file. -/
  read : String → m (Except FileError ByteArray)
  /-- Makes a file hold the given bytes, creating it where there is none. -/
  write : String → ByteArray → m (Except FileError Unit)

namespace Storage

variable {m : Type → Type} [Monad m] [Storage m]

/-- The text of a file. -/
def readText (path : String) : m (Except FileError String) := do
  match ← Storage.read path with
  | .error cause => pure (.error cause)
  | .ok bytes => match String.fromUTF8? bytes with
    | some text => pure (.ok text)
    | none => pure (.error .notUtf8)

/-- What the text of a file gives. -/
def load {ε α : Type} (unreadable : FileError → ε) (ofText : String → Except ε α) (path : String) : m (Except ε α) := do
  match ← readText path with
  | .error cause => pure (.error (unreadable cause))
  | .ok text => pure (ofText text)

end Storage

end Stencil
