import LiveBinding.Action.Perform
import LiveBinding.Session.Label

/-! Running a session: steps one after the other in one world, a report on each. -/
namespace LiveBinding.Session

/-- Nested requests a step may make. Sessions that end stay far below it. -/
def nesting : Nat := 1000000

/-- What one step did. The result is missing if the step did not finish. -/
structure Report (α : Type) where
  result : Option (Except BindError α)
  events : List Event
  entries : List LogEntry
  /-- The stored values of the watched attributes: no object, no value, or a value. -/
  watched : List (Option (Option Snapshot))
  describe : ObjectId → String

/-- The stored value of an attribute of the object under a label. -/
def watch (w : World) (label name : String) : Option (Option Snapshot) :=
  match w.desk.kept.get? (.objects, label) with
  | some (.object o) => some ((w.stored? o name).map w.snapshot)
  | _ => none

/-- Runs one step in a world. Events and log entries are handed out with the report. -/
def advance {α : Type} (watches : List (String × String)) (p : Program α) (w : World) :
    Report α × World :=
  let (result, w') := match (step p).run (perform nesting) w with
    | some (r, w') => (some r, w')
    | none => (none, w)
  ({ result := result
     events := w'.desk.events.toList
     entries := w'.log.toList
     watched := watches.map fun x => watch w' x.1 x.2
     describe := w'.describe },
   {w' with log := #[], desk := {w'.desk with events := #[]}})

/-- Runs steps in order. A failed step does not end the session. -/
def run {α : Type} (watches : List (String × String)) : List (Program α) → World → List (Report α)
  | [], _ => []
  | p :: rest, w =>
    let (report, w) := advance watches p w
    report :: run watches rest w

/-- Runs a session from the beginning. -/
def start {α : Type} (watches : List (String × String)) (steps : List (Program α)) :
    List (Report α) :=
  run watches steps Builtin.world

end LiveBinding.Session
