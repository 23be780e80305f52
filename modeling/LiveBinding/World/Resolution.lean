import LiveBinding.World.Liveness

/-! Which object of an owner chain has an attribute.

The chain of an object is the object, its parent, the parent's parent and so on. A view
has an attribute when the chain of its owner has. Parents and owners of views are older
than what refers to them, so the identity an object has bounds the steps to the end. -/
namespace LiveBinding.World

mutual

/-- Whether an object has an attribute, looking through at most `fuel` objects. -/
def hasWithin (w : World) (name : String) : Nat → ObjectId → Bool
  | 0, _ => false
  | fuel + 1, o =>
    match w.entity? o with
    | some (.declared d) => d.hasAttribute name
    | some (.change c) => (c.attribute? name).isSome
    | some (.view owner _) => (nearestWithin w name fuel owner).isSome
    | none => false

/-- The first object of a chain that has an attribute. -/
def nearestWithin (w : World) (name : String) : Nat → ObjectId → Option ObjectId
  | 0, _ => none
  | fuel + 1, o =>
    if hasWithin w name fuel o then some o
    else match w.parent? o with
      | some p => nearestWithin w name fuel p
      | none => none

end

/-- Whether a name is an attribute of an object. Nothing is evaluated. -/
def hasAttribute (w : World) (o : ObjectId) (name : String) : Bool :=
  w.hasWithin name (2 * o.index + 1) o

/-- The nearest object of the owner chain that has the attribute. -/
def nearest? (w : World) (o : ObjectId) (name : String) : Option ObjectId :=
  w.nearestWithin name (2 * o.index + 2) o

/-- Whether a scope gives a reserved name a meaning. A view needs its owner to be
there. -/
def available (w : World) (s : Scope) : Reserved → Bool
  | .self => true
  | .nonlocals => w.has s.owner
  | .change => s.change.isSome
  | .tracer => s.tracer.isSome

/-- Whether a name means anything in a scope. -/
def visible (w : World) (s : Scope) (name : String) : Bool :=
  (match Reserved.ofName? name with
    | some r => w.available s r
    | none => false) ||
    (w.layer s.locals).contains name || (w.nearest? s.owner name).isSome ||
    s.environment.globals.contains name || s.environment.builtins.contains name

end LiveBinding.World
