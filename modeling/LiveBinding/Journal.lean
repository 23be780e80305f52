import LiveBinding.Entity
import LiveBinding.Failure

/-! What a run leaves behind for its host: events, log entries and labelled handles. -/
namespace LiveBinding

/-! ### Snapshots -/

/-- A value with its contents, cut loose from the world. -/
inductive Snapshot where
  | null
  | bool (b : Bool)
  | int (i : Int64)
  | float (x : Binary64)
  | str (s : String)
  | list (items : List Snapshot)
  | map (entries : List (String × Snapshot))
  | object (description : String)
  | native (name : String)
  | tracer
deriving Inhabited

/-! ### Events -/

/-- What bodies and observers of the host put on record. -/
inductive Event where
  | logged (label : String) (value : Snapshot)
  | observed (label : String) (kind : ChangeKind) (owner name : String) (old new : Snapshot)
  | failed (label : String) (error : BindError)
deriving Inhabited

/-! ### Log entries -/

inductive Severity where
  | error
  | warn
  | info
  | debug
  | trace
deriving DecidableEq, Repr, Inhabited

namespace Severity

def rank : Severity → Nat
  | error => 0
  | warn => 1
  | info => 2
  | debug => 3
  | trace => 4

def text : Severity → String
  | error => "error"
  | warn => "warn"
  | info => "info"
  | debug => "debug"
  | trace => "trace"

def ofText? (s : String) : Option Severity :=
  [error, warn, info, debug, trace].find? fun v => v.text = s

/-- Whether an entry is shown when only entries as severe as `threshold` are. -/
def shownAt (s threshold : Severity) : Bool := decide (s.rank ≤ threshold.rank)

end Severity

/-- A log entry. Values are rendered when the entry is made, since containers change. -/
inductive LogEntry where
  | callStarted (function : String) (owner : ObjectId) (arguments : Nat)
  | observersNotified (name : String) (kind : ChangeKind) (observers : Nat)
  | subscriptionsInstalled (owner : ObjectId) (name : String) (subscriptions : Nat)
  | bindingUpdated (owner : ObjectId) (name value : String)
  | dependencyChanged (owner : ObjectId) (name : String) (source : ObjectId) (changed : String)
  | writeSuppressed (owner : ObjectId) (name : String)
  | inversionFailed (target : String) (error : BindError)
  | evaluationFailed (owner : ObjectId) (name : String) (error : BindError)
  | updateFailed (owner : ObjectId) (name : String) (error : BindError)
deriving Inhabited

namespace LogEntry

def severity : LogEntry → Severity
  | callStarted .. | observersNotified .. | writeSuppressed .. => .trace
  | subscriptionsInstalled .. | bindingUpdated .. | dependencyChanged .. => .debug
  | inversionFailed .. => .warn
  | evaluationFailed .. | updateFailed .. => .error

/-- The entry opens a span and has a name instead of a message. -/
def isSpan : LogEntry → Bool
  | callStarted .. => true
  | _ => false

def message : LogEntry → String
  | callStarted .. => "call_func"
  | observersNotified .. => "notifying observers"
  | subscriptionsInstalled .. => "subscriptions installed"
  | bindingUpdated .. => "binding updated"
  | dependencyChanged .. => "dependency changed"
  | writeSuppressed .. => "write suppressed during update"
  | inversionFailed .. => "inversion failed"
  | evaluationFailed .. => "binding evaluation failed"
  | updateFailed .. => "binding update failed"

/-- A field of a log entry is a text or a count. -/
inductive Field where
  | text (s : String)
  | count (n : Nat)
deriving DecidableEq, Inhabited

/-- The named fields, objects described by `describe`. -/
def fields (describe : ObjectId → String) : LogEntry → List (String × Field)
  | callStarted f o n => [("func", .text f), ("owner", .text (describe o)), ("nargs", .count n)]
  | observersNotified a k n =>
    [("attribute", .text a), ("kind", .text k.text), ("observers", .count n)]
  | subscriptionsInstalled o a n =>
    [("owner", .text (describe o)), ("attribute", .text a), ("subscriptions", .count n)]
  | bindingUpdated o a v =>
    [("owner", .text (describe o)), ("attribute", .text a), ("value", .text v)]
  | dependencyChanged o a s c =>
    [("owner", .text (describe o)), ("attribute", .text a), ("source", .text (describe s)),
      ("changed", .text c)]
  | writeSuppressed o a => [("owner", .text (describe o)), ("attribute", .text a)]
  | inversionFailed t e => [("descriptor", .text t), ("error", .text e.message)]
  | evaluationFailed o a e | updateFailed o a e =>
    [("object", .text (describe o)), ("attribute", .text a), ("error", .text e.message)]

end LogEntry

/-! ### Labelled handles -/

/-- Something the host keeps alive under a label. -/
inductive Kept where
  | object (o : ObjectId)
  | change (o : ObjectId)
  | value (v : Value)
  | function (f : FunctionRef)
  | subscription (s : Subscription)
  | registry (r : RegistryRef)
  | bundle (ss : List Subscription)
  | scope (s : Scope)
  | tracer (t : TracerRef)
  | handler (h : Handler)
  | engine (e : EngineRef)
deriving Inhabited

/-- Labels of different kinds of handle do not clash. -/
inductive Drawer where
  | objects
  | changes
  | values
  | functions
  | subscriptions
  | registries
  | bundles
  | scopes
  | tracers
  | handlers
  | engines
deriving DecidableEq, Repr, Inhabited

def Kept.drawer : Kept → Drawer
  | object _ => .objects
  | change _ => .changes
  | value _ => .values
  | function _ => .functions
  | subscription _ => .subscriptions
  | registry _ => .registries
  | bundle _ => .bundles
  | scope _ => .scopes
  | tracer _ => .tracers
  | handler _ => .handlers
  | engine _ => .engines

/-- What the host keeps, has recorded, and may still do. -/
structure Desk where
  kept : Dict (Drawer × String) Kept
  events : Array Event
  /-- Steps, bodies and watchers the host's scripts may still start. -/
  allowance : Nat

namespace Desk

def initial : Desk := ⟨.empty, #[], 1000⟩

instance : Inhabited Desk := ⟨initial⟩

def keep (d : Desk) (label : String) (k : Kept) : Desk :=
  {d with kept := d.kept.insert (k.drawer, label) k}

def release (d : Desk) (drawer : Drawer) (label : String) : Desk :=
  {d with kept := d.kept.erase (drawer, label)}

def record (d : Desk) (e : Event) : Desk := {d with events := d.events.push e}

end Desk

end LiveBinding
