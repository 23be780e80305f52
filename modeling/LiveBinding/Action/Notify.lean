import LiveBinding.Action.Engine

/-! Delivering a change to the observers of an attribute.

A notification runs the observers that are held when it starts, in the order they were
registered, and holds them itself until the last has run: observers that are registered
meanwhile wait for the next change, and observers that are let go meanwhile still see
this one. -/
namespace LiveBinding

/-- Evaluates a binding again because something it consulted has changed. Whoever made
the change does not hear of a failure; the log does. -/
def refresh (self : Performer) (l : Link) (c : Change) : Action Unit := do
  if (← Action.read (·.isLive (.engine l.engine))) &&
      (← Action.read (·.isLive (.object l.owner))) then
    Action.log (.dependencyChanged l.owner l.name c.owner c.name)
    match ← Action.attempt (Engine.update self l.engine l.owner l.name) with
    | .ok _ => return ()
    | .error e => Action.log (.updateFailed l.owner l.name e)

/-- Runs one watcher; its failure goes nowhere. -/
def watch (self : Performer) (x : Watcher) (change : ObjectId) : Action Unit :=
  (Action.attempt ((x.code change).run self)).bind fun _ => Action.succeed ()

/-- What one observer does about a change. -/
def react (self : Performer) (change : ObjectId) : Observer → Action Unit
  | .watcher c => fun w =>
    match w.watchers[c.index]? with
    | some x => watch self x change w
    | none => some (.ok (), w)
  | .link l => fun w =>
    match w.links[l.index]?, w.change? change with
    | some x, some c => refresh self x c w
    | _, _ => some (.ok (), w)

/-- Lets one observer know of a change. -/
def inform (self : Performer) (change : ObjectId) (x : Observer) : Action Unit := do
  Action.update (·.tell x change)
  react self change x

/-- Lets observers know of a change, one after the other. -/
def deliver (self : Performer) (change : ObjectId) : List Observer → Action Unit
  | [] => Action.succeed ()
  | x :: rest => do
    inform self change x
    deliver self change rest

/-- The observers that somebody still holds. -/
def World.liveObservers (w : World) (xs : List Observer) : List Observer :=
  xs.filter fun x => w.isLive x.handle

/-- Delivers a change and says how many observers heard of it. Observers nobody holds
any more are forgotten on the way. -/
def notify (self : Performer) (r : RegistryRef) (change : ObjectId) : Action Nat := do
  match ← Action.read (·.change? change) with
  | none => return 0
  | some c =>
    match ← Action.read fun w => (w.registry r).slots.get? c.name with
    | none => return 0
    | some observers =>
      let live ← Action.read (·.liveObservers observers)
      Action.update (·.modifyRegistry r (·.prune c.name live.contains))
      Action.log (.observersNotified c.name c.kind live.length)
      Action.holding (.object change :: live.map Observer.handle) (deliver self change live)
      return live.length

end LiveBinding
