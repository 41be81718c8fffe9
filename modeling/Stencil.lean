import Stencil.Main
import Stencil.Resolver.Functions
import Stencil.Resolver.Members
import Stencil.Data.Json.Value
import Stencil.Naming
import Stencil.Files.Tree
import Stencil.Proofs.Scan.Items
import Stencil.Proofs.Blocks.Correctness
import Stencil.Proofs.Expand.Composition
import Stencil.Proofs.Expand.Conservation
import Stencil.Proofs.Expand.Invariant
import Stencil.Proofs.Expand.Location
import Stencil.Proofs.Expand.DeadCode
import Stencil.Proofs.Wrap.Grouping
import Stencil.Proofs.Expand.Nesting
import Stencil.Proofs.Scan.Printing
import Stencil.Proofs.Expand.Breaks
import Stencil.Proofs.Expand.Substitution
import Stencil.Proofs.Expand.Settings
import Stencil.Proofs.Wrap.Ahead
import Stencil.Proofs.Resolver.Session
import Stencil.Proofs.Command.Check
import Stencil.Proofs.Wrap.Width
import Stencil.Proofs.Expand.Swallowing
import Stencil.Proofs.Expand.Splicing
import Stencil.Proofs.Expand.Alignment
import Stencil.Proofs.Reference.Reading
import Stencil.Proofs.Naming.Words
import Stencil.Proofs.Text.Upper
import Stencil.Proofs.Command.Layers
import Stencil.Proofs.Data.Conversion
import Stencil.Proofs.Naming.Canonical
import Stencil.Proofs.Value.Nearness
import Stencil.Proofs.Files.Joining
import Stencil.Proofs.Command.Discovery
