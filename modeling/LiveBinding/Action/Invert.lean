import LiveBinding.Action.Names
import LiveBinding.Action.Trace
import LiveBinding.World.Containers

/-! Assigning through the shape of an expression.

| shape | assignment |
|-------|------------|
| `x` | the name `x` |
| `x.a.b` | the attribute `b` of `x.a` |
| `x[k]` | the item `k` of `x` |
| `getattr(o, "a")` | the attribute `a` of `o` |

Any other shape has no inverse. -/
namespace LiveBinding

/-- A refused access is why no assignment follows; other failures pass. -/
def BindError.refused : BindError → BindError
  | .access cause => .inversion (.refused cause)
  | other => other

/-- A name that means nothing is why no base follows; other failures pass. -/
def BindError.unresolved : BindError → BindError
  | .nameResolution name => .inversion (.unresolvedBase name)
  | other => other

/-- Follows attributes from a value. -/
def follow (self : Performer) (path : Path) : List String → Value → Action Value
  | [], v => Action.succeed v
  | hop :: rest, v => do
    match ← Action.attempt (getAttr self v hop) with
    | .ok x => follow self path rest x
    | .error (.access _) =>
      Action.throw (.inversion (.missingHop (← Action.read (·.typeNameOf v)) hop path))
    | .error other => Action.throw other

/-- The value at the base of a target. -/
def resolve (self : Performer) (s : Scope) (path : Path) : Action Value := do
  follow self path path.hops (← (getName self s path.root).mapError BindError.unresolved)

def setItem (v key x : Value) : Action Unit := fun w =>
  match w.setItem v key x with
  | .ok w => some (.ok (), w)
  | .error e => some (.error e, w)

def assignTarget (self : Performer) (s : Scope) (v : Value) : Target → Action Unit
  | .name name =>
    if isReserved name then Action.throw (.inversion (.reserved name))
    else (setName self s name v).mapError BindError.refused
  | .attr base name => do
    let o ← resolve self s base
    (setAttr self o name v).mapError BindError.refused
  | .item base key => do
    let o ← resolve self s base
    (setItem o key v).mapError BindError.refused
  | .call function args => do
    let f ← (getName self s function).mapError BindError.unresolved
    let invertible ← Action.read fun w =>
      match f with
      | .native n => decide (w.nativeName n = getattrName)
      | _ => false
    if invertible then
      match args with
      | [o, .str name] => (setAttr self o name v).mapError BindError.refused
      | _ => Action.throw (.inversion .badArguments)
    else Action.throw (.inversion (.notInvertible function))
  | .unsupported shape => Action.throw (.inversion (.noInverse shape))

/-- Assigns a value through a target; a failure is logged as well. Target and value are
held while the base is resolved. -/
def invert (self : Performer) (s : Scope) (target : Target) (v : Value) : Action Unit := do
  let assigning := Action.holding (target.handles ++ v.handles) (assignTarget self s v target)
  match ← Action.attempt assigning with
  | .ok _ => return ()
  | .error e =>
    Action.log (.inversionFailed (← Action.read (·.targetText target)) e)
    Action.throw e

end LiveBinding
