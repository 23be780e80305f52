import LiveBinding.Action.Call

/-! The engine: reading, writing and updating bound attributes.

A traced read replaces the attribute's links by one for each dependency it recorded. An
update reads an attribute and assigns the result back; meanwhile the attribute is
guarded, so that a two-way binding does not write back what it read. -/
namespace LiveBinding

namespace Engine

/-! ### Failures -/

/-- Ends an evaluation under the engine's policy: the failure, or an entry in the log
and the default. -/
def settle {α : Type} (policy : FailurePolicy) (default : α) (owner : ObjectId) (name : String)
    (r : Except BindError α) : Action α :=
  match r, policy with
  | .ok a, _ => Action.succeed a
  | .error e, .propagate => Action.throw e
  | .error e, .logAndContinue => do
    Action.log (.evaluationFailed owner name e)
    return default

/-! ### Links -/

/-- Registers an observer for an attribute of an object. -/
def observe (r : RegistryRef) (name : String) (x : Observer) : Action Unit :=
  Action.update (·.modifyRegistry r (·.add name x))

/-- Links an attribute to one dependency, unless that is the attribute itself or cannot
be observed. -/
def follow (e : EngineRef) (owner : ObjectId) (name : String) (d : Dependency) :
    Action (Option LinkRef) :=
  if d.object = owner ∧ d.name = name then Action.succeed none
  else do
    match ← Action.read (·.registryOf? d.object) with
    | some r => do
      let l ← Action.add (·.addLink ⟨e, owner, name⟩)
      observe r d.name (.link l)
      return some l
    | none => return none

def followAll (e : EngineRef) (owner : ObjectId) (name : String) :
    List Dependency → Action (List LinkRef)
  | [] => Action.succeed []
  | d :: rest => do
    let first ← follow e owner name d
    let others ← followAll e owner name rest
    return first.toList ++ others

/-- Puts a successful evaluation on the engine's record, with the attributes of existing
objects that its tracer recorded. -/
def conclude (e : EngineRef) (owner : ObjectId) (name : String) (t : TracerRef) : Action Unit :=
  Action.update fun w =>
    let consulted := (w.tracer t).dependencies.filter fun d => w.has d.object
    w.modifyEngine e (·.note (.evaluated name owner consulted w.links.size))

/-- Replaces the links of an attribute by those of its latest evaluation. -/
def relink (e : EngineRef) (owner : ObjectId) (name : String) (t : TracerRef) : Action Unit := do
  let config ← Action.read fun w => (w.engine e).config
  let links ←
    if config.traceSubscriptions then do
      let dependencies ← Action.read fun w => (w.tracer t).dependencies
      Action.update (·.modifyTracer t Tracer.drain)
      let links ← followAll e owner name dependencies
      Action.log (.subscriptionsInstalled owner name links.length)
      pure links
    else pure []
  Action.update (·.modifyEngine e fun g => {g with links := g.links.insert name links})

/-! ### Reading and writing -/

/-- Evaluates a read handler; a traced one is linked anew if it succeeds. -/
def evaluate (self : Performer) (e : EngineRef) (owner : ObjectId) (name : String) (h : Handler) :
    Action (Option Value) :=
  if h.kind = .tracedRead then do
    let (v, t) ← h.readTraced self owner name
    conclude e owner name t
    relink e owner name t
    return some v
  else do
    return some (← h.read self owner name)

/-- Reads a bound attribute; nothing if it has no read handler. -/
def read (self : Performer) (e : EngineRef) (owner : ObjectId) (name : String) :
    Action (Option Value) := do
  let g ← Action.read (·.engine e)
  match (g.bindings.get? name).bind Binding.read with
  | none => return none
  | some h =>
    Action.underLimit g.config.maxDepth do
      let r ← Action.attempt (evaluate self e owner name h)
      settle g.config.policy none owner name r

/-- Runs the write handler of an attribute for a change, unless the attribute is
guarded. -/
def write (self : Performer) (e : EngineRef) (owner : ObjectId) (name : String)
    (change : ObjectId) : Action Unit := do
  let g ← Action.read (·.engine e)
  if g.guards.contains name then
    Action.log (.writeSuppressed owner name)
  else
    match (g.bindings.get? name).bind Binding.write with
    | none => return ()
    | some h =>
      Action.underLimit g.config.maxDepth do
        let r ← Action.attempt (h.write self owner name change)
        settle g.config.policy () owner name r

/-- Reads a bound attribute again and assigns the result to it. -/
def update (self : Performer) (e : EngineRef) (owner : ObjectId) (name : String) : Action Unit :=
  Action.holding [.engine e, .object owner] do
    match ← read self e owner name with
    | none => return ()
    | some v =>
      Action.log (.bindingUpdated owner name (← Action.read (·.text v)))
      Action.guarding e name (self _ (.setAttr (.object owner) name v))

end Engine

end LiveBinding
