import Conductor.Assembly
import Conductor.Proofs.Decision.Shapes
import Conductor.Proofs.Digest.Compression
import Conductor.Proofs.Fencing
import Conductor.Proofs.Json.Fields
import Conductor.Proofs.Policy.Table
import Conductor.Proofs.Run.Accounts
import Conductor.Proofs.Run.Admission
import Conductor.Proofs.Run.Boundary
import Conductor.Proofs.Run.Cancellation
import Conductor.Proofs.Run.Counters
import Conductor.Proofs.Run.Ending
import Conductor.Proofs.Run.Events
import Conductor.Proofs.Run.Loading
import Conductor.Proofs.Run.Memory
import Conductor.Proofs.Run.Missing
import Conductor.Proofs.Run.Newest
import Conductor.Proofs.Run.Reason
import Conductor.Proofs.Run.Resumption
import Conductor.Proofs.Run.RetryCeiling
import Conductor.Proofs.Run.Saved
import Conductor.Proofs.Run.Storeless
import Conductor.Proofs.Run.Unrecoverable
import Conductor.Proofs.Store.Directory
import Conductor.Proofs.Stored
import Conductor.Proofs.Tool.StandIn
import Conductor.Rehearsal.Model
import Conductor.Rehearsal.Store
import Conductor.Rehearsal.Tool
import Conductor.Proofs.Decision.Precedence
import Conductor.Proofs.Schema.Repair
import Conductor.Proofs.Observation.Bounds
import Conductor.Proofs.Observation.Names
import Conductor.Proofs.Observation.Account
import Conductor.Proofs.Json.Places
import Conductor.Proofs.Critique.Reply
import Conductor.Proofs.Run.Achieved
import Conductor.Proofs.Text.Substitution
import Conductor.Proofs.Critique.Prompt
import Conductor.Proofs.Retry.Growth
import Conductor.Proofs.Decision.ToolName
import Conductor.Proofs.Run.Isolation
