import Evalbox.Deadline.Future
import Evalbox.Main
import Evalbox.Proofs.Capture.Delivery
import Evalbox.Proofs.Capture.Replacement
import Evalbox.Proofs.Cli.Endings
import Evalbox.Proofs.Cli.Overrides
import Evalbox.Proofs.Compile.Engines
import Evalbox.Proofs.Compile.Flags
import Evalbox.Proofs.Compile.Imports
import Evalbox.Proofs.Compile.Runs
import Evalbox.Proofs.Compile.Shown
import Evalbox.Proofs.Deadline.Race
import Evalbox.Proofs.Engine.Abandoned
import Evalbox.Proofs.Engine.Frame
import Evalbox.Proofs.Engine.Rotation
import Evalbox.Proofs.Lang.Leading
import Evalbox.Proofs.Modules.Nesting
import Evalbox.Proofs.Modules.Ownership
import Evalbox.Proofs.Outcome.Attribution
import Evalbox.Proofs.Policy.Events
import Evalbox.Proofs.Policy.Files
import Evalbox.Proofs.Policy.Namespace
import Evalbox.Proofs.Policy.Scopes
import Evalbox.Proofs.Unit.Begins
import Evalbox.Proofs.Unit.Empty
import Evalbox.Proofs.Unit.Inverse
import Evalbox.Proofs.Unit.Literals
import Evalbox.Proofs.Unit.Numbering
import Evalbox.Proofs.Unit.Returning
import Evalbox.Proofs.Unit.Splice
import Evalbox.World.Entry
import Evalbox.World.Modules
