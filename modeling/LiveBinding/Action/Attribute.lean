import LiveBinding.Action.Notify

/-! Attributes of objects: reading, assigning, emitting, clearing.

| operation | effect on a declared object |
|-----------|------------------------------|
| assign an equal value | nothing |
| first assignment | a `create` change, observers first, then the write handler |
| later assignment | an `update` change, likewise |
| read without a value, with a read handler | the binding is evaluated and its result stored |
| read without a value otherwise | nothing stored, the null value |
| emit | an `event` change; nothing stored |
| clear | the value is gone and a `delete` change follows |

Constants are never assigned and names that are no attributes never gain a value. The
attributes of a change cannot be assigned, and a view passes everything on to the
nearest object of its owner's chain. -/
namespace LiveBinding

/-! ### Changes -/

/-- Makes a change known: to the observers of the attribute, then to its write
handler. -/
def dispatch (self : Performer) (o : ObjectId) (kind : ChangeKind) (name : String)
    (old new : Value) : Action Unit := do
  let change ← Action.add (·.addObject (.change ⟨kind, o, name, old, new⟩))
  Action.holding [.object o, .object change] do
    match ← Action.read (·.registryOf? o) with
    | some r => let _ ← notify self r change
    | none => pure ()
    match ← Action.read (·.engineOf? o) with
    | some e => Action.holding [.engine e] (Engine.write self e o name change)
    | none => pure ()

def storeValue (o : ObjectId) (name : String) (v : Value) : Action Unit :=
  Action.update (·.modifyDeclared o fun d => {d with values := d.values.insert name v})

/-! ### Assigning -/

def assignDeclared (self : Performer) (o : ObjectId) (d : Declared) (name : String) (v : Value) :
    Action Unit :=
  if d.isConstant name then Action.throw (.readOnly d.typeName name)
  else if !d.hasAttribute name then Action.throw (.noSuchAttribute d.typeName name)
  else
    match d.values.get? name with
    | some old => do
      if ← Action.read (·.equal old v) then return ()
      storeValue o name v
      dispatch self o .update name old v
    | none => do
      storeValue o name v
      dispatch self o .create name .null v

/-- Assigns to an attribute of an object. -/
def assign (self : Performer) (o : ObjectId) (name : String) (v : Value) : Action Unit := do
  match ← Action.read (·.entity? o) with
  | some (.declared d) => Action.holding [.object o] (assignDeclared self o d name v)
  | some (.change c) =>
    if (c.attribute? name).isSome then Action.throw (.readOnly "Change" name)
    else Action.throw (.noSuchAttribute "Change" name)
  | some (.view owner _) =>
    match ← Action.read (·.nearest? owner name) with
    | some target => Action.holding [.object o] (self _ (.setAttr (.object target) name v))
    | none => Action.throw (.noSuchAttribute (← Action.read (·.typeName owner)) name)
  | none => Action.throw (.noSuchAttribute "" name)

/-- Fires a change that stores nothing. -/
def emit (self : Performer) (o : ObjectId) (name : String) (v : Value) : Action Unit := do
  if ← Action.read (·.hasAttribute o name) then
    Action.holding [.object o] (dispatch self o .event name .null v)
  else
    Action.throw (.noSuchAttribute (← Action.read (·.typeName o)) name)

/-- Drops the stored value of an attribute; the attribute stays declared. -/
def clear (self : Performer) (o : ObjectId) (name : String) : Action Unit := do
  match ← Action.read (·.declared? o) with
  | none => return ()
  | some d =>
    if d.isConstant name then Action.throw (.readOnly d.typeName name)
    else
      match d.values.get? name with
      | none => return ()
      | some old =>
        Action.update (·.modifyDeclared o fun d =>
          ({d with values := d.values.erase name}).declare name)
        dispatch self o .delete name old .null

/-! ### Reading -/

/-- The nearest attribute of an owner chain; a tracer records the object it came from. -/
def loadName (self : Performer) (owner : ObjectId) (name : String) (t : Option TracerRef) :
    Action (Option Value) := do
  match ← Action.read (·.nearest? owner name) with
  | none => return none
  | some o =>
    let v ← self _ (.readAttr o name)
    match v, t with
    | some _, some t => Action.update (·.modifyTracer t (·.record ⟨o, name⟩))
    | _, _ => pure ()
    return v

def readDeclared (self : Performer) (o : ObjectId) (d : Declared) (name : String) :
    Action (Option Value) :=
  match d.values.get? name with
  | some v => Action.succeed (some v)
  | none =>
    if !d.hasAttribute name then Action.succeed none
    else do
      match d.engine with
      | some e =>
        if ← Action.read fun w => (w.engine e).hasReader name then
          Engine.update self e o name
      | none => pure ()
      return some ((← Action.read (·.stored? o name)).getD .null)

/-- The value of an attribute, or nothing if there is no such attribute. -/
def readAttr (self : Performer) (o : ObjectId) (name : String) : Action (Option Value) := do
  match ← Action.read (·.entity? o) with
  | some (.declared d) => Action.holding [.object o] (readDeclared self o d name)
  | some (.change c) => return c.attribute? name
  | some (.view owner t) => Action.holding [.object o] (loadName self owner name t)
  | none => return none

/-- Reads an attribute of any value; only objects have attributes. -/
def getAttr (self : Performer) (v : Value) (name : String) : Action Value := do
  match v with
  | .object o =>
    match ← readAttr self o name with
    | some x => return x
    | none => Action.throw (.noSuchAttribute (← Action.read (·.typeName o)) name)
  | other => Action.throw (.noSuchAttribute (← Action.read (·.typeNameOf other)) name)

/-- Assigns to an attribute of any value. -/
def setAttr (self : Performer) (v : Value) (name : String) (x : Value) : Action Unit := do
  match v with
  | .object o => assign self o name x
  | other => Action.throw (.noSuchAttribute (← Action.read (·.typeNameOf other)) name)

/-! ### Declaring and binding -/

/-- Gives every layer of local variables its cell. -/
def addSlots (slots : Dict ScopeKey LayerRef) :
    List (ScopeKey × Dict String Value) → Action (Dict ScopeKey LayerRef)
  | [] => Action.succeed slots
  | (key, locals) :: rest => do
    let l ← Action.add (·.addLayer locals)
    addSlots (slots.insert key l) rest

/-- Builds an object. A parent has to exist before its children. -/
def newObject (b : Blueprint) : Action ObjectId := do
  let registry ← Action.add (·.addRegistry .empty)
  let storage ← addSlots .empty b.storage.entries
  Action.add fun w => w.addObject (.declared
    { typeName := b.typeName
      parent := b.parent.filter w.has
      members := b.members
      constants := b.constants.keys
      values := b.attributes.insertAll b.constants.entries
      storage := storage
      registry := registry
      config := b.config
      engine := none })

def newEngine (config : Option Config) : Action EngineRef := do
  let config ← match config with
    | some c => pure c
    | none => globalConfig
  Action.add (·.addEngine (.start config))

/-- The engine of a declared object, made when first needed. -/
def engineFor (o : ObjectId) (d : Declared) : Action EngineRef :=
  match d.engine with
  | some e => Action.succeed e
  | none => do
    let e ← newEngine d.config
    Action.update (·.modifyDeclared o fun d => {d with engine := some e})
    return e

/-- Binds a function to an attribute, which is declared if it was not yet. -/
def bindAttribute (o : ObjectId) (name : String) (op : Operator) (f : FunctionRef)
    (key : ScopeKey) : Action Unit := do
  match ← Action.read (·.declared? o) with
  | none => return ()
  | some d =>
    Action.update (·.modifyDeclared o (·.declare name))
    let e ← engineFor o d
    Action.update (·.modifyEngine e (·.addBinding name (op.bind f key)))

/-- Evaluates bound attributes that can be read and have no value, in order. -/
def populateAll (self : Performer) (o : ObjectId) (e : EngineRef) : List String → Action Unit
  | [] => Action.succeed ()
  | name :: rest => do
    let reader ← Action.read fun w => (w.engine e).hasReader name
    let unset ← Action.read fun w => (w.stored? o name).isNone
    if reader && unset then
      let _ ← readAttr self o name
    populateAll self o e rest

def populate (self : Performer) (o : ObjectId) : Action Unit := do
  match ← Action.read (·.engineOf? o) with
  | none => return ()
  | some e =>
    let names ← Action.read fun w => (w.engine e).names
    Action.holding [.object o, .engine e] (populateAll self o e names)

/-- The slot of local variables for a key, made empty if there is none. -/
def localSlot (o : ObjectId) (key : ScopeKey) : Action LayerRef := do
  match ← Action.read (·.localStorage? o key) with
  | some l => return l
  | none =>
    let l ← Action.add (·.addLayer .empty)
    Action.update (·.modifyDeclared o fun d => {d with storage := d.storage.insert key l})
    return l

end LiveBinding
