import Stencil.Disk
import Stencil.Main
import Stencil.Options.Workbench
import Stencil.Proofs.Codegen.Batch
import Stencil.Proofs.Codegen.Correctness
import Stencil.Proofs.Codegen.Emission
import Stencil.Proofs.Codegen.Relevance
import Stencil.Proofs.Compiler.Inputs
import Stencil.Proofs.Interchange
import Stencil.Proofs.Locale
import Stencil.Proofs.Options.Saving
import Stencil.Proofs.Options.Workbench
import Stencil.Proofs.Output.Targets
import Stencil.Proofs.Output.Writing
import Stencil.Proofs.Php.Clash
import Stencil.Proofs.Php.Comment
import Stencil.Proofs.Php.Conflict
import Stencil.Proofs.Php.Messages
import Stencil.Proofs.Php.Precedence
import Stencil.Proofs.Php.Quoted
import Stencil.Proofs.Php.Transparency
import Stencil.Proofs.Pipeline.Protocol
import Stencil.Proofs.Scope.Occupancy
import Stencil.Proofs.SourceBuffer.Blocks
import Stencil.Proofs.Template.Canonical
import Stencil.Proofs.Template.Insertion
import Stencil.Proofs.Template.PassOrder
