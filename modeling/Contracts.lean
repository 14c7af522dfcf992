import Contracts.Main
import Contracts.Proofs.Binary64.Appending
import Contracts.Proofs.Binary64.Decimals
import Contracts.Proofs.Binary64.Layouts
import Contracts.Proofs.Binary64.Nearest
import Contracts.Proofs.Binary64.Range
import Contracts.Proofs.Binary64.Rounding
import Contracts.Proofs.Binary64.Significant
import Contracts.Proofs.Bindings.Positions
import Contracts.Proofs.CommandLine.Agreement
import Contracts.Proofs.CommandLine.Exits
import Contracts.Proofs.Entries
import Contracts.Proofs.Guard.Calls
import Contracts.Proofs.Guard.Gate
import Contracts.Proofs.Json.Documents
import Contracts.Proofs.Json.Numbers
import Contracts.Proofs.Json.Reading
import Contracts.Proofs.Json.Shapes
import Contracts.Proofs.Json.Texts
import Contracts.Proofs.Numeral.Grammar
import Contracts.Proofs.Numeral.Radix
import Contracts.Proofs.Report.Documents
import Contracts.Proofs.Script.Course
import Contracts.Proofs.Script.Documents
import Contracts.Proofs.Script.Identity
import Contracts.Proofs.Script.Inlining
import Contracts.Proofs.Script.Misuses
import Contracts.Proofs.Script.Policies
import Contracts.Proofs.Session.Blame
import Contracts.Proofs.Session.Clients
import Contracts.Proofs.Session.Recording
import Contracts.Proofs.Session.Replay
import Contracts.Proofs.Session.Verification
import Contracts.Proofs.Signature.Angles
import Contracts.Proofs.Signature.Bodies
import Contracts.Proofs.Signature.Defaults
import Contracts.Proofs.Signature.Forms
import Contracts.Proofs.Signature.Heading
import Contracts.Proofs.Signature.Nesting
import Contracts.Proofs.Signature.Occurrences
import Contracts.Proofs.Signature.Opacity
import Contracts.Proofs.Signature.Parameter
import Contracts.Proofs.Signature.Reading
import Contracts.Proofs.Signature.Scanning
import Contracts.Proofs.Specification.Plan
import Contracts.Proofs.Text.Boundaries
import Contracts.Proofs.Value.Contents
import Contracts.Proofs.Value.Display
import Contracts.Proofs.Value.Equality
import Contracts.Proofs.Value.Handles
import Contracts.Proofs.Value.Ordering
