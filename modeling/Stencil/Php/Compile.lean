import Stencil.Php.Name
import Stencil.Scope
import Stencil.Template
/-!
# Compile — the program of a template file

A template becomes a function: first the definitions of its messages, where the options ask for them, then one appended
expression for each node.  Both are found by a walk over the body; the second takes the definitions of numbered messages
from the first, one for each message.  The first fault ends the compilation.  All definitions of a template come before
its nodes, so a message id with two texts is found before any fault among the nodes.
-/
namespace Stencil
namespace Php

inductive EmitError
  | injectedDataDisabled (function expression : String)
  | uninsertedMessage (id : String)
  | invalidExpression (expression : String)
  | conflictingMessageText (id : String)
deriving Repr, DecidableEq

def EmitError.message : EmitError → String
  | .injectedDataDisabled function expression =>
    "Template '" ++ function ++ "' reads injected data '" ++ expression ++ "' but injected data is disabled"
  | .uninsertedMessage id => "Message '" ++ id ++ "' reached emission untranslated"
  | .invalidExpression expression => "Invalid data expression '" ++ expression ++ "'"
  | .conflictingMessageText id => "External message '" ++ id ++ "' is defined with two different texts"

/-! ## Definitions -/

/-- The variable for a message id, after `numbered` numbers of the file, and the numbers that are taken with it. -/
def messageVariable (o : Options) (id : String) (numbered : Nat) : Variable × Nat :=
  if o.messagesAreExternalEffective then (.external id, numbered) else (.unnamed (numbered + 1), numbered + 1)

/-- The definition that a variable for an external message shares, if its name is taken. -/
def sharedDefinition? (o : Options) (defined : List Definition) (target : Variable) : Option Definition :=
  if o.messagesAreExternalEffective then defined.find? fun d => d.target.render == target.render else none

/-- Defines the inserted messages of a body, after those that are `defined` already.  A message whose id has its definition
gets no other, and must have its text. -/
def defineMessages (o : Options) (defined : List Definition) (numbered : Nat) :
    List Node → Except EmitError (List Definition × Nat)
  | [] => .ok (defined, numbered)
  | .messageText id text :: rest =>
    let (target, numbered) := messageVariable o id numbered
    match sharedDefinition? o defined target with
    | some d => if d.text = text then defineMessages o defined numbered rest else .error (.conflictingMessageText id)
    | none => defineMessages o (defined ++ [⟨target, text⟩]) numbered rest
  | _ :: rest => defineMessages o defined numbered rest

/-- The definitions of a function, where the options ask for them. -/
def definitions (o : Options) (numbered : Nat) (body : List Node) : Except EmitError (List Definition × Nat) :=
  if o.generatesMessageDefs then defineMessages o [] numbered body else .ok ([], numbered)

/-! ## Values -/

/-- The keys of a data expression, between its points.  None may be empty. -/
def keys? (expression : String) : Option (List String) :=
  let keys := Text.splitOn '.' expression
  if keys.any String.isEmpty then none else some keys

/-- The value that a print node outputs. -/
def printed (o : Options) (function expression : String) (injected : Bool) : Except EmitError Expression :=
  if injected && !o.usesInjectedData then .error (.injectedDataDisabled function expression)
  else match keys? expression with
    | none => .error (.invalidExpression expression)
    | some keys => .ok (.escaped (if injected then .injected else .data) keys)

/-- The value that an inserted message outputs, and the definitions that are left for the messages after it.  A numbered
message takes the next definition. -/
def messageValue (o : Options) (unused : List Definition) (id text : String) : Expression × List Definition :=
  if !o.generatesMessageDefs then (.literal text, unused)
  else if o.messagesAreExternalEffective then (.use (.external id), unused)
  else match unused with
    | [] => (.literal text, [])
    | d :: unused => (.use d.target, unused)

/-- The value of a node for both directions. -/
def bidiValue (direction : EffectiveDirection) (ltr rtl : String) : Expression :=
  match direction with
  | .fixed d => .literal (d.choose ltr rtl)
  | .deferred => .byDirection ltr rtl

/-- The value of a node of the named function, and the definitions that are left for the nodes after it. -/
def nodeValue (c : Context) (function : String) (unused : List Definition) :
    Node → Except EmitError (Expression × List Definition)
  | .rawText text => .ok (.literal text, unused)
  | .print expression injected => (printed c.options function expression injected).map (·, unused)
  | .message m => .error (.uninsertedMessage m.id)
  | .messageText id text => .ok (messageValue c.options unused id text)
  | .bidi ltr rtl => .ok (bidiValue c.direction ltr rtl, unused)

/-- The values of a body in order. -/
def bodyValues (c : Context) (function : String) (unused : List Definition) :
    List Node → Except EmitError (List Expression)
  | [] => .ok []
  | node :: rest => do
    let (value, unused) ← nodeValue c function unused node
    let values ← bodyValues c function unused rest
    pure (value :: values)

/-! ## Functions -/

/-- The function of a template, after `numbered` numbers of the file, and the numbers that are taken then. -/
def compileTemplate (c : Context) (package : String) (numbered : Nat) (t : Template) :
    Except EmitError (Function × Nat) := do
  let name := functionName package t.name
  let (defined, numbered) ← definitions c.options numbered t.body
  let appended ← bodyValues c name defined t.body
  pure (⟨name, defined, appended⟩, numbered)

/-- The functions of a row of templates. -/
def compileTemplates (c : Context) (package : String) (numbered : Nat) : List Template → Except EmitError (List Function)
  | [] => .ok []
  | t :: ts => do
    let (function, numbered) ← compileTemplate c package numbered t
    let functions ← compileTemplates c package numbered ts
    pure (function :: functions)

/-- The program of a template file. -/
def compile (c : Context) (f : TemplateFile) : Except EmitError File := do
  let functions ← compileTemplates c f.package 0 f.templates
  pure ⟨f.path, c.options.usesInjectedData, functions⟩

end Php
end Stencil
