import LiveBinding.World

/-! Equality of values.

Scalars are equal by value, an integer equals a floating-point number that it converts
to, objects, functions and tracers are equal to themselves only. Containers are equal
if they are the same or have equal contents. -/
namespace LiveBinding.World

/-- Equality of values that are not looked into. -/
def sameScalar : Value → Value → Bool
  | .float x, .float y => x.equal y
  | .int i, .float x | .float x, .int i => (Binary64.ofInt64 i).equal x
  | a, b => decide (a = b)

/-- Equal lengths and equal items in every place. -/
def sameItems (eq : Value → Value → Bool) (xs ys : List Value) : Bool :=
  xs.length == ys.length && (xs.zip ys).all fun p => eq p.1 p.2

/-- Equal sizes, and every entry of one is an entry of the other. -/
def sameEntries (eq : Value → Value → Bool) (d e : Dict String Value) : Bool :=
  d.size == e.size && d.entries.all fun p =>
    match e.get? p.1 with
    | some v => eq p.2 v
    | none => false

/-- Equality that looks into containers, at most `fuel` deep. -/
def equalWithin (w : World) : Nat → Value → Value → Bool
  | 0, a, b => sameScalar a b
  | fuel + 1, .list r, .list s =>
    decide (r = s) || sameItems (equalWithin w fuel) (w.items r) (w.items s)
  | fuel + 1, .map r, .map s =>
    decide (r = s) || sameEntries (equalWithin w fuel) (w.entries r) (w.entries s)
  | _ + 1, a, b => sameScalar a b

/-- How deep containers can be nested. -/
def containers (w : World) : Nat := w.lists.size + w.maps.size

def equal (w : World) (a b : Value) : Bool := w.equalWithin w.containers a b

end LiveBinding.World
