import LiveBinding.Action.Attribute

/-! Names in a scope.

A name is looked up among the reserved names, then in the locals, then on the owner
chain, then among globals, then among builtins. It is assigned on the owner chain if
some object there has it, and in the locals otherwise. -/
namespace LiveBinding

/-- The meaning of a reserved name, if the scope gives it one. -/
def reservedValue (s : Scope) : Reserved → Action (Option Value)
  | .self => Action.succeed (some (.object s.owner))
  | .change => Action.succeed (s.change.map .object)
  | .tracer => Action.succeed (s.tracer.map .tracer)
  | .nonlocals => do
    if ← Action.read (·.has s.owner) then
      let view ← Action.add (·.addObject (.view s.owner s.tracer))
      return some (.object view)
    else return none

/-- The meaning of a name behind reserved names and locals. -/
def outerName (self : Performer) (s : Scope) (name : String) : Action Value := do
  match ← loadName self s.owner name s.tracer with
  | some v => return v
  | none =>
    match s.environment.globals.get? name with
    | some v => return v
    | none =>
      match s.environment.builtins.get? name with
      | some v => return v
      | none => Action.throw (.nameResolution name)

def getName (self : Performer) (s : Scope) (name : String) : Action Value := do
  let reserved ← match Reserved.ofName? name with
    | some r => reservedValue s r
    | none => pure none
  match reserved with
  | some v => return v
  | none =>
    match ← Action.read fun w => (w.layer s.locals).get? name with
    | some v => return v
    | none => outerName self s name

def storeLocal (l : LayerRef) (name : String) (v : Value) : Action Unit :=
  Action.update (·.modifyLayer l (·.insert name v))

def setName (self : Performer) (s : Scope) (name : String) (v : Value) : Action Unit :=
  if isReserved name then
    Action.throw (.evaluation s!"cannot assign to reserved name '{name}'")
  else do
    match ← Action.read (·.nearest? s.owner name) with
    | some o => assign self o name v
    | none => storeLocal s.locals name v

/-- Only locals can be deleted. -/
def delName (s : Scope) (name : String) : Action Unit := do
  if ← Action.read fun w => (w.layer s.locals).contains name then
    Action.update (·.modifyLayer s.locals (·.erase name))
  else Action.throw (.nameResolution name)

end LiveBinding
