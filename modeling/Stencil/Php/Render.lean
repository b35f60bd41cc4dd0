import Stencil.Php.Compile
import Stencil.Php.Quoted
import Stencil.SourceBuffer
/-!
# Render — the text of a program

Three lines open a file: the tag, the template file it was generated from, and a request not to edit it.  Each function
follows after an empty line, its body one level in.
-/
namespace Stencil
namespace Php

/-- The test for right-to-left text that generated code makes when it runs. -/
def runtimeIsRtl : String := "Bidi::isRtl()"

def Root.render : Root → String
  | .data => "$data"
  | .injected => "$ij"

/-- A value of the data, one key after the other. -/
def renderAccess (root : Root) (keys : List String) : String :=
  root.render ++ String.join (keys.map fun key => "[" ++ quote key ++ "]")

def Expression.render : Expression → String
  | .literal text => quote text
  | .use name => name.render
  | .escaped root keys => "htmlspecialchars(" ++ renderAccess root keys ++ ")"
  | .byDirection ltr rtl => "(" ++ runtimeIsRtl ++ " ? " ++ quote rtl ++ " : " ++ quote ltr ++ ")"

def Definition.render (d : Definition) : String := d.target.render ++ " = " ++ quote d.text ++ ";"

/-- The parameters of every function of a file. -/
def parameters (takesInjected : Bool) : String :=
  if takesInjected then "array $data = array(), array $ij = array()" else "array $data = array()"

/-- The lines of a function. -/
def Function.script (takesInjected : Bool) (f : Function) : Script Empty :=
  .block ("function " ++ f.name ++ "(" ++ parameters takesInjected ++ ")")
    (.line "$output = '';" :: (f.definitions.map fun d => .line d.render) ++
      (f.appended.map fun e => .line ("$output .= " ++ e.render ++ ";")) ++ [.line "return $output;"])

/-- The lines that open a file. -/
def banner (origin : String) : List String :=
  ["<?php", "// This file was automatically generated from " ++ origin ++ ".",
    "// Please don't edit this file by hand."]

/-- The lines of a file. -/
def File.script (f : File) : List (Script Empty) :=
  (banner f.origin).map .line ++ f.functions.flatMap fun function => [.blank, function.script f.takesInjected]

/-- The text of a file, each level four blanks further in. -/
def File.render (f : File) : String := Script.render "    " f.script

/-- The text of the code for a template file. -/
def emit (c : Context) (f : TemplateFile) : Except EmitError String := (compile c f).map File.render

end Php
end Stencil
