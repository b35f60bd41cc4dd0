/-!
# CommandLine — the arguments of an invocation

Arguments are read from left to right by `Reading.step`, which refuses what no invocation has.  An option takes a value,
in the same argument or the next; the next argument is no value if it starts like an option.  The options file may be
named before and after the command, and the name after it stands.  After `--` every argument is a file.
-/
namespace Stencil

inductive Command
  /-- Generate code for template files, possibly with a message bundle and into a directory. -/
  | generate (bundle outDir : Option String) (files : List String)
  /-- Tell the direction that generated code would assume for a locale. -/
  | direction (locale : Option String)
deriving Repr, DecidableEq

structure Invocation where
  options : Option String
  command : Command
deriving Repr, DecidableEq

namespace CommandLine

inductive Verb
  | generate
  | direction
deriving Repr, DecidableEq

inductive Flag
  | options
  | bundle
  | outDir
  | locale
deriving Repr, DecidableEq

/-- The options of a level: before the command, or after it. -/
def flags : Option Verb → List Flag
  | none => [.options]
  | some .generate => [.options, .bundle, .outDir]
  | some .direction => [.options, .locale]

def Flag.long : Flag → List Char
  | .options => ['o', 'p', 't', 'i', 'o', 'n', 's']
  | .bundle => ['b', 'u', 'n', 'd', 'l', 'e']
  | .outDir => ['o', 'u', 't', '-', 'd', 'i', 'r']
  | .locale => ['l', 'o', 'c', 'a', 'l', 'e']

def Flag.short? : Flag → Option Char
  | .options => some 'o'
  | .bundle => some 'b'
  | .outDir => none
  | .locale => some 'l'

/-- Whether the value names a file or directory, which an empty text does not. -/
def Flag.takesPath : Flag → Bool
  | .locale => false
  | _ => true

/-- What has been read. -/
structure Reading where
  verb : Option Verb := none
  /-- The value of the options file given before the command. -/
  early : Option String := none
  /-- The values given at the present level. -/
  given : List (Flag × String) := []
  files : List String := []
  /-- The option whose value is due. -/
  due : Option Flag := none
  /-- Whether `--` has been read. -/
  literal : Bool := false
deriving Repr

namespace Reading

/-- Takes the value of an option, which may be given once at a level. -/
def give (r : Reading) (flag : Flag) (value : String) : Option Reading :=
  if (r.given.lookup flag).isSome || (flag.takesPath && value.isEmpty) then none
  else some { r with given := (flag, value) :: r.given, due := none }

/-- An argument that is no option: the command, and then files. -/
def positional (r : Reading) (arg : String) : Option Reading :=
  match r.verb with
  | some .generate => if arg.isEmpty then none else some { r with files := r.files ++ [arg] }
  | some .direction => none
  | none =>
    let enter (verb : Verb) : Reading :=
      { r with verb := some verb, early := r.given.lookup .options, given := [] }
    if arg = "generate" then some (enter .generate)
    else if arg = "direction" then some (enter .direction)
    else none

/-- An option that starts with two hyphens, with its value after an equals sign or in the next argument. -/
def long (r : Reading) (text : List Char) : Option Reading :=
  let name := text.takeWhile (· != '=')
  match (flags r.verb).find? (·.long == name) with
  | none => none
  | some flag =>
    match text.dropWhile (· != '=') with
    | [] => some { r with due := some flag }
    | _ :: value => r.give flag (String.ofList value)

/-- An option of one letter, with its value right after it, possibly behind an equals sign, or in the next argument. -/
def short (r : Reading) (letter : Char) (value : List Char) : Option Reading :=
  match (flags r.verb).find? (·.short? == some letter) with
  | none => none
  | some flag =>
    match value with
    | [] => some { r with due := some flag }
    | '=' :: value => r.give flag (String.ofList value)
    | value => r.give flag (String.ofList value)

def step (r : Reading) (arg : String) : Option Reading :=
  if r.literal then r.positional arg
  else match r.due, arg.toList with
    | some _, '-' :: _ :: _ => none
    | some flag, _ => r.give flag arg
    | none, ['-', '-'] => if r.verb.isSome then some { r with literal := true } else none
    | none, '-' :: '-' :: text => r.long text
    | none, '-' :: letter :: value => r.short letter value
    | none, _ => r.positional arg

/-- The invocation at the end of the arguments. -/
def finish (r : Reading) : Option Invocation :=
  if r.due.isSome then none
  else
    let options := r.given.lookup .options <|> r.early
    match r.verb with
    | none => none
    | some .generate =>
      if r.files.isEmpty then none
      else some ⟨options, .generate (r.given.lookup .bundle) (r.given.lookup .outDir) r.files⟩
    | some .direction => some ⟨options, .direction (r.given.lookup .locale)⟩

end Reading

/-- The invocation that the arguments spell, if they spell one. -/
def parse? (args : List String) : Option Invocation := do (← args.foldlM Reading.step {}).finish

end CommandLine
end Stencil
