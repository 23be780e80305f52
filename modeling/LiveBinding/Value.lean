import LiveBinding.Number.Binary64

/-! Values and the identities they refer by.

A value is a scalar or a reference. Lists, maps, objects, native functions and
tracers live in the world and are shared: two values that hold the same reference
see the same contents. -/
namespace LiveBinding

/-! ### Identities -/

/-- Identity of an object. Identities are handed out in order and print from one. -/
structure ObjectId where
  index : Nat
deriving DecidableEq, Repr, Inhabited

def ObjectId.number (o : ObjectId) : Nat := o.index + 1

structure ListRef where
  index : Nat
deriving DecidableEq, Repr, Inhabited

structure MapRef where
  index : Nat
deriving DecidableEq, Repr, Inhabited

structure NativeRef where
  index : Nat
deriving DecidableEq, Repr, Inhabited

structure TracerRef where
  index : Nat
deriving DecidableEq, Repr, Inhabited

/-- A layer of local variables. -/
structure LayerRef where
  index : Nat
deriving DecidableEq, Repr, Inhabited

structure FunctionRef where
  index : Nat
deriving DecidableEq, Repr, Inhabited

structure RegistryRef where
  index : Nat
deriving DecidableEq, Repr, Inhabited

/-- Code of the host that runs on changes. -/
structure WatcherRef where
  index : Nat
deriving DecidableEq, Repr, Inhabited

/-- A bound attribute's tie to something its evaluation consulted. -/
structure LinkRef where
  index : Nat
deriving DecidableEq, Repr, Inhabited

structure EngineRef where
  index : Nat
deriving DecidableEq, Repr, Inhabited

/-- Names the slot of local variables of one binding site: given by whoever compiled
the site, or drawn fresh. A fresh key differs from every given one. -/
inductive ScopeKey where
  | given (raw : Nat)
  | fresh (serial : Nat)
deriving DecidableEq, Repr, Inhabited

/-! ### Values -/

inductive Value where
  | null
  | bool (b : Bool)
  | int (i : Int64)
  | float (x : Binary64)
  | str (s : String)
  | list (r : ListRef)
  | map (r : MapRef)
  | object (o : ObjectId)
  | native (f : NativeRef)
  | tracer (t : TracerRef)
deriving DecidableEq, Inhabited

namespace Value

def isNull : Value → Bool
  | .null => true
  | _ => false

def asBool : Value → Option Bool
  | .bool b => some b
  | _ => none

/-- An integer, or a truth value as zero or one. -/
def asInt : Value → Option Int64
  | .int i => some i
  | .bool b => some (if b then 1 else 0)
  | _ => none

/-- A number as floating point; truth values are not numbers here. -/
def asFloat : Value → Option Binary64
  | .float x => some x
  | .int i => some (.ofInt64 i)
  | _ => none

def asStr : Value → Option String
  | .str s => some s
  | _ => none

def asObject : Value → Option ObjectId
  | .object o => some o
  | _ => none

def asNative : Value → Option NativeRef
  | .native f => some f
  | _ => none

end Value

end LiveBinding
