import Stencil.Php.Program
import Stencil.Proofs.Php.Token
/-!
# Routine — generated functions as they are read and run

A routine is a function as a reader finds it: its name, its parameters and its statements.  `routines?` reads the
routines of a file after the comment that names its origin, and `Routine.eval` runs one: variables are assigned and
appended to, and the page's escaping of a data value is a function of the root and the keys.
-/
namespace Stencil
namespace Php

inductive Term
  | literal (text : String)
  | var (name : String)
  | escaped (root : Root) (keys : List String)
  | byDirection (ifRtl otherwise : String)
deriving Repr, DecidableEq

inductive Statement
  | assign (name text : String)
  | append (name : String) (value : Term)
  | result (name : String)
deriving Repr, DecidableEq

structure Routine where
  name : String
  parameters : List String
  statements : List Statement := []
deriving Repr, DecidableEq

def Root.name : Root → String
  | .data => "data"
  | .injected => "ij"

/-! ## Reading -/

def root? (name : String) : Option Root :=
  if name = "data" then some .data else if name = "ij" then some .injected else none

/-- The keys of a data access, up to the parenthesis that closes the call around it. -/
def accessKeys? : List Token → Option (List String)
  | [.mark ')'] => some []
  | .mark '[' :: .literal key :: .mark ']' :: rest => (accessKeys? rest).map (key :: ·)
  | _ => none

def term? : List Token → Option Term
  | [.literal text] => some (.literal text)
  | [.var name] => some (.var name)
  | .word "htmlspecialchars" :: .mark '(' :: .var name :: rest => do
    let root ← root? name
    let keys ← accessKeys? rest
    pure (.escaped root keys)
  | [.mark '(', .word "Bidi", .operator "::", .word "isRtl", .mark '(', .mark ')', .operator "?", .literal ifRtl,
      .operator ":", .literal otherwise, .mark ')'] => some (.byDirection ifRtl otherwise)
  | _ => none

/-- The statement in front of a semicolon. -/
def statement? : List Token → Option Statement
  | [.var name, .operator "=", .literal text] => some (.assign name text)
  | .var name :: .operator ".=" :: rest => (term? rest).map (.append name)
  | [.word "return", .var name] => some (.result name)
  | _ => none

/-- Parameters that are arrays and empty by default, up to the closing parenthesis. -/
def parameters? : List Token → Option (List String)
  | [.word "array", .var name, .operator "=", .word "array", .mark '(', .mark ')', .mark ')'] => some [name]
  | .word "array" :: .var name :: .operator "=" :: .word "array" :: .mark '(' :: .mark ')' :: .mark ',' :: rest =>
    (parameters? rest).map (name :: ·)
  | _ => none

/-- A function as far as the brace that opens its body. -/
def opening? : List Token → Option Routine
  | .word "function" :: .word name :: .mark '(' :: rest => (parameters? rest).map fun parameters => { name, parameters }
  | .word "function" :: .mark '(' :: rest => (parameters? rest).map fun parameters => { name := "", parameters }
  | _ => none

/-- The routines of a row of tokens: the one that is open, then the others.  `pending` are the tokens since the last
brace or semicolon. -/
def routinesFrom? (current : Option Routine) (pending : List Token) : List Token → Option (List Routine)
  | [] => if current = none ∧ pending = [] then some [] else none
  | t :: rest =>
    match current with
    | none =>
      if t = .mark '\x7b' then (opening? pending).bind fun r => routinesFrom? (some r) [] rest
      else routinesFrom? none (pending ++ [t]) rest
    | some r =>
      if t = .mark '\x7d' then if pending = [] then (routinesFrom? none [] rest).map (r :: ·) else none
      else if t = .mark ';' then
        (statement? pending).bind fun s => routinesFrom? (some { r with statements := r.statements ++ [s] }) [] rest
      else routinesFrom? (some r) (pending ++ [t]) rest

def preamble (origin : String) : String :=
  "<?php\n// This file was automatically generated from " ++ origin ++ ".\n// Please don't edit this file by hand.\n"

/-- The routines of a file that was generated from the given origin. -/
def routines? (origin text : String) : Option (List Routine) := do
  let code ← (preamble origin).toList.isPrefixOf? text.toList
  let tokens ← tokens? code
  routinesFrom? none [] tokens

/-! ## Running -/

/-- What generated code finds when it runs: the direction of the page and the escaping of its data. -/
structure Page where
  isRtl : Bool
  escaped : Root → List String → String

/-- The variables of a routine, the last one assigned first. -/
abbrev Variables := List (String × String)

/-- The value of a term.  A variable has to be assigned, and data has to be a parameter. -/
def Term.eval (page : Page) (parameters : List String) (vars : Variables) : Term → Option String
  | .literal text => some text
  | .var name => vars.lookup name
  | .escaped root keys => if root.name ∈ parameters then some (page.escaped root keys) else none
  | .byDirection ifRtl otherwise => some (if page.isRtl then ifRtl else otherwise)

def runStatements (page : Page) (parameters : List String) : List Statement → Variables → Option String
  | [], _ => none
  | .assign name text :: rest, vars => runStatements page parameters rest ((name, text) :: vars)
  | .append name value :: rest, vars => do
    let before ← vars.lookup name
    let added ← value.eval page parameters vars
    runStatements page parameters rest ((name, before ++ added) :: vars)
  | .result name :: _, vars => vars.lookup name

def Routine.eval (page : Page) (r : Routine) : Option String := runStatements page r.parameters r.statements []

end Php
end Stencil
