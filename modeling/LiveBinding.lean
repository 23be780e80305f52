import LiveBinding.Dict
import LiveBinding.Number.Decimal
import LiveBinding.Number.Numeral
import LiveBinding.Text.Quoted
import LiveBinding.Value
import LiveBinding.Target
import LiveBinding.Handler
import LiveBinding.Failure
import LiveBinding.Config
import LiveBinding.Scope
import LiveBinding.Entity
import LiveBinding.Program
import LiveBinding.World
import LiveBinding.World.Resolution
import LiveBinding.World.Answer
import LiveBinding.Action.Engine
import LiveBinding.World.Containers
import LiveBinding.Action.Attribute
import LiveBinding.Builtin
import LiveBinding.Action.Perform
import LiveBinding.Session.Run
import LiveBinding.Proofs.Consistency
import LiveBinding.Proofs.Subscriptions
import LiveBinding.Proofs.Limits
import LiveBinding.Proofs.Deliveries
import LiveBinding.Proofs.Persistence
import LiveBinding.Proofs.Runs
import LiveBinding.Proofs.LastWrite
import LiveBinding.Proofs.Suppression
import LiveBinding.Proofs.Delegation
import LiveBinding.Proofs.Nesting
import LiveBinding.Proofs.Recovery
import LiveBinding.Proofs.Mirror
import LiveBinding.Proofs.TwoWay
import LiveBinding.Proofs.Peers
import LiveBinding.Proofs.Tracing
import LiveBinding.Proofs.Determined
import LiveBinding.Proofs.Initialization
import LiveBinding.Proofs.Isolation
import LiveBinding.Proofs.Containment
import LiveBinding.Proofs.Circle
import LiveBinding.Proofs.Dependents
import LiveBinding.Proofs.Replay
import LiveBinding.Proofs.Constants
import LiveBinding.Proofs.Histories
import LiveBinding.Proofs.Inversion
import LiveBinding.Proofs.Recording
import LiveBinding.Proofs.Discretion
import LiveBinding.Proofs.OwnReads
import LiveBinding.Proofs.Obstacles
import LiveBinding.Proofs.NameWrites
import LiveBinding.Proofs.Transparency
import LiveBinding.Proofs.Temporaries
import LiveBinding.Proofs.Walks
import LiveBinding.Proofs.Extremes
import LiveBinding.Proofs.Numbers
import LiveBinding.Proofs.Structure
import LiveBinding.Proofs.Decimals
import LiveBinding.Proofs.Items
import LiveBinding.Proofs.Defaults
import LiveBinding.Proofs.Bookkeeping
import LiveBinding.Proofs.Recognition
