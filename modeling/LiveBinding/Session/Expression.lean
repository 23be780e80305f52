import LiveBinding.Program

/-! Building blocks of expression bodies.

An expression is code for a scope and arguments. Its parts are evaluated from left to
right, and the first failure ends the whole. What a part has given is held while the parts
after it are evaluated. -/
namespace LiveBinding

abbrev Expression := Scope → Arguments → Program Value

namespace Expression

def literal (p : Program Value) : Expression := fun _ _ => p

/-- A part, evaluated while an earlier value is held. -/
def holding (v : Value) (e : Expression) : Expression := fun s a => .holding v.handles (e s a)

/-- Parts in order, with all their values. -/
def values (es : List Expression) (s : Scope) (a : Arguments) : Program (List Value) :=
  match es with
  | [] => pure []
  | e :: rest => do
    let v ← e s a
    return v :: (← Program.holding v.handles (values rest s a))

/-! ### Names -/

def name (n : String) : Expression := fun s _ => .request (.getName s n)

def assign (n : String) (e : Expression) : Expression := fun s a => do
  Program.request (.setName s n (← e s a))
  return .null

def delete (n : String) : Expression := fun s _ => do
  Program.request (.delName s n)
  return .null

def visible (n : String) : Expression := fun s _ => do
  return .bool (← .query (.visible s n))

/-- The locals as they are now, in a map of their own. -/
def locals : Expression := fun s _ => do
  Program.request (.newMap (← .query (.layer s.locals)))

def hasChange : Expression := fun s _ => pure (.bool s.change.isSome)

def hasTracer : Expression := fun s _ => pure (.bool s.tracer.isSome)

def owner : Expression := fun s _ => pure (.object s.owner)

/-! ### Values -/

def attr (e : Expression) (n : String) : Expression := fun s a => do
  Program.request (.getAttr (← e s a) n)

def setAttr (e : Expression) (n : String) (x : Expression) : Expression := fun s a => do
  let o ← e s a
  Program.request (.setAttr o n (← holding o x s a))
  return .null

def item (e key : Expression) : Expression := fun s a => do
  let v ← e s a
  Program.request (.getItem v (← holding v key s a))

def setItem (e key x : Expression) : Expression := fun s a => do
  let v ← e s a
  let k ← holding v key s a
  Program.request (.setItem v k (← holding v (holding k x) s a))
  return .null

def call (f : Expression) (args : List Expression) : Expression := fun s a => do
  let f ← f s a
  Program.request (.call f (← Program.holding f.handles (values args s a)))

def list (es : List Expression) : Expression := fun s a => do
  Program.request (.newList (← values es s a))

def typeName (e : Expression) : Expression := fun s a => do
  return .str (← .query (.typeName (← e s a)))

def isTrue (e : Expression) : Expression := fun s a => do
  return .bool (← .query (.isTrue (← e s a)))

def equal (x y : Expression) : Expression := fun s a => do
  let v ← x s a
  return .bool (← .query (.equal v (← holding v y s a)))

/-- Arithmetic on 64 bits; what is no integer counts as zero. -/
def arithmetic (op : Int64 → Int64 → Int64) (x y : Expression) : Expression := fun s a => do
  let v ← x s a
  let w ← holding v y s a
  return .int (op (v.asInt.getD 0) (w.asInt.getD 0))

def add : Expression → Expression → Expression := arithmetic (· + ·)

def sub : Expression → Expression → Expression := arithmetic (· - ·)

def mul : Expression → Expression → Expression := arithmetic (· * ·)

/-- Texts joined; what is no text counts as empty. -/
def cat (x y : Expression) : Expression := fun s a => do
  let v ← x s a
  let w ← holding v y s a
  return .str (v.asStr.getD "" ++ w.asStr.getD "")

/-! ### Control -/

/-- Parts in order after one that gave a value, and the value of the last. A value is held
until the next part has given one. -/
def after (v : Value) : List Expression → Expression
  | [], _, _ => pure v
  | e :: rest, s, a => do after (← holding v e s a) rest s a

/-- All parts in order, and the value of the last. -/
def seq : List Expression → Expression := after .null

def branch (condition yes no : Expression) : Expression := fun s a => do
  if ← .query (.isTrue (← condition s a)) then yes s a else no s a

def fail (message : String) : Expression := fun _ _ => .fail (.evaluation message)

/-- The value of a part, or the message of its failure. -/
def recover (e : Expression) : Expression := fun s a => do
  match ← (e s a).attempt with
  | .ok v => return v
  | .error err => return .str err.message

/-- Puts the value of a part on record. -/
def log (label : String) (e : Expression) : Expression := fun s a => do
  let v ← e s a
  Program.request (.record (.logged label (← .query (.snapshot v))))
  return v

/-! ### Arguments -/

def argumentCount : Expression := fun _ a => pure (.int (.ofNat a.count))

def noArguments : Expression := fun _ a => pure (.bool a.isEmpty)

def inverting : Expression := fun _ a => pure (.bool a.inversion?.isSome)

/-- The value an inverted write stores, or the null value. -/
def argumentValue : Expression := fun _ a =>
  pure (match a.inversion? with
    | some (_, v) => v
    | none => .null)

def inversion (a : Arguments) : Program (Scope × Value) :=
  match a.inversion? with
  | some i => pure i
  | none => .fail (.evaluation "expression body expects an inverter argument")

/-- The value an inverted write stores. -/
def value : Expression := fun _ a => do return (← inversion a).2

/-- A name in the scope that an inverted write assigns in. -/
def inverterName (n : String) : Expression := fun _ a => do
  Program.request (.getName (← inversion a).1 n)

def invert (target : Scope → Arguments → Program Target) (e : Expression) : Expression :=
  fun s a => do
  let (inner, _) ← inversion a
  let t ← target s a
  Program.request (.invert inner t (← Program.holding t.handles (e s a)))
  return .null

/-! ### Tracing -/

def tracer (a : Arguments) : Program TracerRef :=
  match a.tracer? with
  | some t => pure t
  | none => .fail (.evaluation "expected a tracer")

def tracedAttr (e : Expression) (n : String) : Expression := fun s a => do
  let t ← tracer a
  Program.request (.loadAttr t (← e s a) n)

def tracedCall (f : Expression) (args : List Expression) : Expression := fun s a => do
  let f ← f s a
  let t ← tracer a
  Program.request (.callTraced t f (← Program.holding f.handles (values args s a)))

def trace (e : Expression) (n : String) : Expression := fun s a => do
  match ← e s a with
  | .object o =>
    Program.request (.trace (← tracer a) o n)
    return .null
  | _ => .fail (.evaluation "cannot trace a non-object")

def dependencyCount : Expression := fun _ a => do
  return .int (.ofNat (← Program.query (.tracer (← tracer a))).dependencies.length)

/-- The attribute a tracer records for, or the null value for anything else. -/
def tracerName (e : Expression) : Expression := fun s a => do
  match ← e s a with
  | .tracer t => return .str (← Program.query (.tracer t)).name
  | _ => return .null

end Expression

end LiveBinding
