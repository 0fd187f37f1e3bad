import Accelerator.Check.Runner
import Accelerator.Main
import Accelerator.Source.Writer
import Accelerator.Proofs.Coherence
import Accelerator.Proofs.Layout
import Accelerator.Proofs.Reachable
import Accelerator.Proofs.Codec
import Accelerator.Proofs.RoundTrip
import Accelerator.Proofs.Moves
import Accelerator.Proofs.Pairing
import Accelerator.Proofs.Calls
import Accelerator.Proofs.Restore
import Accelerator.Proofs.Survey
import Accelerator.Proofs.Obstacles
import Accelerator.Proofs.Sweep
import Accelerator.Proofs.Selection
import Accelerator.Proofs.Rerun
import Accelerator.Proofs.Rejection
import Accelerator.Proofs.Loading
import Accelerator.Proofs.Frame
import Accelerator.Proofs.Handles
import Accelerator.Proofs.Resume
import Accelerator.Proofs.ObjectFiles
import Accelerator.Proofs.Tables
import Accelerator.Proofs.Accepted
import Accelerator.Proofs.Tokens
import Accelerator.Proofs.ReadBack
import Accelerator.Proofs.Printed
import Accelerator.Proofs.Ignored
import Accelerator.Proofs.Merging
import Accelerator.Proofs.Comments
import Accelerator.Proofs.Scripts
import Accelerator.Proofs.CloneNames
import Accelerator.Proofs.Eligibility
import Accelerator.Proofs.Truncation
import Accelerator.Proofs.Matching
import Accelerator.Proofs.Numbers
import Accelerator.Proofs.Positions
import Accelerator.Proofs.Rosters
import Accelerator.Proofs.Naming
