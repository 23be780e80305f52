import LiveBinding.Action.Attribute

/-! Native functions, and reads recorded by a tracer. -/
namespace LiveBinding

/-- The native function whose calls read an attribute. -/
def getattrName : String := "getattr"

def runNative (self : Performer) (f : NativeRef) (args : List Value) : Action Value := fun w =>
  match w.natives[f.index]? with
  | some n => (n.code args).run self w
  | none => some (.ok .null, w)

/-- Calls a value; only native functions can be called. -/
def callValue (self : Performer) (f : Value) (args : List Value) : Action Value :=
  match f with
  | .native n =>
    Action.holding (.native n :: args.flatMap Value.handles) (runNative self n args)
  | other => do
    Action.throw (.evaluation s!"'{← Action.read (·.typeNameOf other)}' object is not callable")

def record (t : TracerRef) (o : ObjectId) (name : String) : Action Unit :=
  Action.update (·.modifyTracer t (·.record ⟨o, name⟩))

/-- Reads an attribute and records the read if it was one of an object. -/
def loadAttr (self : Performer) (t : TracerRef) (v : Value) (name : String) : Action Value := do
  let x ← Action.holding (.tracer t :: v.handles) (getAttr self v name)
  match v with
  | .object o => record t o name
  | _ => pure ()
  return x

/-- Calls a function and records the attribute it read, if the function is called
`getattr` and was given an object and a name. -/
def callTraced (self : Performer) (t : TracerRef) (f : Value) (args : List Value) :
    Action Value := do
  let x ← Action.holding [.tracer t] (callValue self f args)
  match f, args with
  | .native n, .object o :: .str name :: _ =>
    if (← Action.read (·.nativeName n)) = getattrName then record t o name
  | _, _ => pure ()
  return x

/-- Gives what a tracer has recorded, and starts it over. -/
def finalize (t : TracerRef) : Action (List Dependency) := do
  let dependencies ← Action.read fun w => (w.tracer t).dependencies
  Action.update (·.modifyTracer t Tracer.drain)
  return dependencies

end LiveBinding
