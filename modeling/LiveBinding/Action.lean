import LiveBinding.World.Answer

/-! Actions: steps of the world that end with a value or a failure, or do not end.

An action is a function of the world. `none` says that it did not finish within the
steps it was given, which is no failure: only `perform` with more steps can tell. A
failure keeps the world it happened in. -/
namespace LiveBinding

def Action (α : Type) : Type 1 := World → Option (Except BindError α × World)

namespace Action
variable {α β : Type}

/-! ### Sequencing -/

def succeed (a : α) : Action α := fun w => some (.ok a, w)

def throw (e : BindError) : Action α := fun w => some (.error e, w)

/-- Goes on with the value; a failure skips the rest. -/
def bind (a : Action α) (f : α → Action β) : Action β := fun w =>
  match a w with
  | none => none
  | some (.error e, w) => some (.error e, w)
  | some (.ok x, w) => f x w

instance : Monad Action where
  pure := succeed
  bind := bind

/-- Turns a failure into a value. -/
def attempt (a : Action α) : Action (Except BindError α) := fun w =>
  match a w with
  | none => none
  | some (r, w) => some (.ok r, w)

/-- Ends with a result found elsewhere. -/
def ofExcept (r : Except BindError α) : Action α := fun w => some (r, w)

/-- Rewords failures. -/
def mapError (f : BindError → BindError) (a : Action α) : Action α := fun w =>
  match a w with
  | none => none
  | some (.error e, w) => some (.error (f e), w)
  | some (.ok x, w) => some (.ok x, w)

/-! ### The world -/

def read (f : World → α) : Action α := fun w => some (.ok (f w), w)

def update (f : World → World) : Action Unit := fun w => some (.ok (), f w)

/-- Adds a cell and gives its reference. -/
def add (f : World → World × α) : Action α := fun w =>
  let (w, a) := f w
  some (.ok a, w)

def log (e : LogEntry) : Action Unit := update fun w => w.addEntry e

/-! ### Brackets

A bracket changes the world before an action and puts it right afterwards, however the
action ends. -/

/-- `leave` gets the world before the bracket and the world after the action. -/
def within (enter : World → World) (leave : World → World → World) (a : Action α) : Action α :=
  fun w => match a (enter w) with
  | none => none
  | some (r, w') => some (r, leave w w')

/-- Holds on to things while an action runs. -/
def holding (hs : List Handle) : Action α → Action α :=
  within (fun w => {w with held := hs ++ w.held}) (fun w w' => {w' with held := w.held})

/-- Puts a limit on nested bodies in force while an action runs. -/
def underLimit (limit : Nat) : Action α → Action α :=
  within (fun w => {w with limit := some limit}) (fun w w' => {w' with limit := w.limit})

/-- Counts an action as one more running body. -/
def nested : Action α → Action α :=
  within (fun w => {w with depth := w.depth + 1}) (fun _ w' => {w' with depth := w'.depth - 1})

/-- Guards a name of an engine while an action runs. A guard that was already up stays
up afterwards. -/
def guarding (e : EngineRef) (name : String) : Action α → Action α :=
  within
    (fun w =>
      if (w.engine e).guards.contains name then w
      else w.modifyEngine e fun g => {g with guards := name :: g.guards})
    (fun w w' =>
      if (w.engine e).guards.contains name then w'
      else w'.modifyEngine e fun g => {g with guards := g.guards.erase name})

end Action

/-- Whoever answers requests. Operations take the performer that answers the requests
they cause themselves. -/
abbrev Performer := (α : Type) → Request α → Action α

/-- Runs a program, request by request. -/
def Program.run (self : Performer) {α : Type} : Program α → Action α
  | .done r => Action.ofExcept r
  | .ask q k => fun w =>
    match self _ q w with
    | none => none
    | some (r, w) => (k r).run self w

namespace Program
variable {α β : Type}

theorem run_request (self : Performer) (q : Request α) : (request q).run self = self α q := by
  funext w
  simp only [request, run]
  split <;> simp_all [Action.ofExcept]

/-- A program that goes on runs as its parts do, one after the other. -/
theorem run_bind (self : Performer) (p : Program α) (f : α → Program β) :
    (p >>= f).run self = p.run self >>= fun a => (f a).run self := by
  show (p.bind f).run self = (p.run self).bind fun a => (f a).run self
  funext w
  match p with
  | .done (.ok a) => rfl
  | .done (.error e) => rfl
  | .ask q k =>
    simp only [bind, run, Action.bind]
    cases h : self _ q w with
    | none => rfl
    | some x => exact congrFun (run_bind self (k x.1) f) x.2
termination_by structural p

theorem run_attempt (self : Performer) (p : Program α) :
    p.attempt.run self = (p.run self).attempt := by
  funext w
  match p with
  | .done r => rfl
  | .ask q k =>
    simp only [attempt, run, Action.attempt]
    cases h : self _ q w with
    | none => rfl
    | some x => exact congrFun (run_attempt self (k x.1)) x.2
termination_by structural p

end Program

end LiveBinding
