import Stencil.Php.Render
import Stencil.Pipeline
import Stencil.Template.Folding
import Stencil.Template.Merging
/-!
# Codegen — PHP for a batch of template files

The pipeline over template files: its collaborators always return, and only insertion and emission can fail.
-/
namespace Stencil
namespace Codegen

/-- The reply of a call that returns a result or an error. -/
def reply {ε α : Type} : Except ε α → Reply ε Empty α
  | .ok value => .done value
  | .error cause => .failed cause

/-- Insertion as a pipeline makes it: a refused file is given up. -/
def inserted (bundle : Option Bundle) (f : TemplateFile) : Except UnsupportedConstruct TemplateFile :=
  match insertMessages bundle f with
  | (.ok (), f) => .ok f
  | (.error cause, _) => .error cause

/-- The pipeline that writes PHP. -/
def pipeline (resolver : Resolver) : Pipeline Unit Empty TemplateFile Php.EmitError where
  insert bundle f s := (reply (inserted bundle f), s)
  fold c f s := (.done (foldDirection c.direction f), s)
  simplify _ f s := (.done (simplify f), s)
  emit c f s := (reply (Php.emit c f), s)
  resolver := resolver

/-- A run over a batch of template files. -/
def run (resolver : Resolver) (options : Options) (bundle : Option Bundle) (files : List TemplateFile) :
    Run Unit Empty TemplateFile (PipelineError Php.EmitError) (List String) :=
  (pipeline resolver).run options bundle files ()

/-- The texts generated for a batch of template files, in order. -/
def generate (resolver : Resolver) (options : Options) (bundle : Option Bundle) (files : List TemplateFile) :
    Except (PipelineError Php.EmitError) (List String) :=
  match (run resolver options bundle files).reply with
  | .done texts => .ok texts
  | .failed cause => .error cause
  | .unwound payload => nomatch payload

end Codegen
end Stencil
