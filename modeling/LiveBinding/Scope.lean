import LiveBinding.Dict
import LiveBinding.Value

/-! What a body resolves its names in. -/
namespace LiveBinding

/-- Names of the module a body was declared in, and the names below them. -/
structure Environment where
  globals : Dict String Value
  builtins : Dict String Value
deriving Inhabited

/-- The context of one evaluation: an owner, a layer of locals, the surrounding
module, and the change or tracer the evaluation is about. -/
structure Scope where
  owner : ObjectId
  locals : LayerRef
  environment : Environment
  change : Option ObjectId
  tracer : Option TracerRef
deriving Inhabited

/-- What a body is handed beside its scope. -/
inductive Arguments where
  | none
  | traced (tracer : TracerRef)
  | inverted (scope : Scope) (value : Value)
deriving Inhabited

namespace Arguments

def count : Arguments → Nat
  | none => 0
  | traced _ => 1
  | inverted .. => 2

def isEmpty : Arguments → Bool
  | none => true
  | _ => false

def tracer? : Arguments → Option TracerRef
  | traced t => some t
  | _ => Option.none

def inversion? : Arguments → Option (Scope × Value)
  | inverted s v => some (s, v)
  | _ => Option.none

end Arguments

/-! ### Reserved names -/

inductive Reserved where
  | self
  | change
  | tracer
  | nonlocals
deriving DecidableEq, Repr, Inhabited

namespace Reserved

def name : Reserved → String
  | self => "self"
  | change => "change"
  | tracer => "_[tracer]"
  | nonlocals => "nonlocals"

def all : List Reserved := [self, change, tracer, nonlocals]

def ofName? (s : String) : Option Reserved := all.find? fun r => r.name = s

theorem ofName?_name (r : Reserved) : ofName? r.name = some r := by cases r <;> decide

end Reserved

def isReserved (name : String) : Bool := (Reserved.ofName? name).isSome

end LiveBinding
