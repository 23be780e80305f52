import LiveBinding.World.Rendering

/-! Items of lists, texts and maps.

An index counts from the front, or from the back if it is negative. A key that does not
fit the container is a bad key; a value that is no container has no items at all. -/
namespace LiveBinding.World

/-- The place an index denotes among `length` items. -/
def place? (i : Int64) (length : Nat) : Option Nat :=
  let at' : Int := if i.toInt < 0 then i.toInt + length else i.toInt
  if 0 ≤ at' ∧ at' < length then some at'.toNat else none

def badKey (w : World) (container key : Value) : BindError :=
  .access (.badKey (w.typeNameOf container) (w.text key))

def notSubscriptable (w : World) (v : Value) : BindError :=
  .access (.notSubscriptable (w.typeNameOf v))

/-- The item of a container at a key. -/
def getItem (w : World) (v key : Value) : Except BindError Value :=
  match v, key with
  | .list r, .int i =>
    match (place? i (w.items r).length).bind fun n => (w.items r)[n]? with
    | some x => .ok x
    | none => .error (w.badKey v key)
  | .str s, .int i =>
    match (place? i s.toList.length).bind fun n => s.toList[n]? with
    | some c => .ok (.str (String.singleton c))
    | none => .error (w.badKey v key)
  | .map r, .str k =>
    match (w.entries r).get? k with
    | some x => .ok x
    | none => .error (w.badKey v key)
  | .list _, _ | .str _, _ | .map _, _ => .error (w.badKey v key)
  | _, _ => .error (w.notSubscriptable v)

/-- The world after an item has been replaced. A list takes an index it has, a map any
text. -/
def setItem (w : World) (v key x : Value) : Except BindError World :=
  match v, key with
  | .list r, .int i =>
    match place? i (w.items r).length with
    | some n => .ok (w.modifyList r fun items => items.set n x)
    | none => .error (w.badKey v key)
  | .map r, .str k => .ok (w.modifyMap r fun entries => entries.insert k x)
  | .list _, _ | .map _, _ => .error (w.badKey v key)
  | _, _ => .error (w.notSubscriptable v)

end LiveBinding.World
