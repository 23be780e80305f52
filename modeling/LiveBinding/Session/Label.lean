import LiveBinding.Builtin
import LiveBinding.Session.Expression

/-! Labels, literals and observers of a session.

A session refers to what it has made by labels. Each kind of handle has labels of its
own; where any object will do, declared objects come before changes, and changes before
stored values. -/
namespace LiveBinding.Session

/-! ### Looking labels up -/

def missing {α : Type} (what label : String) : Program α :=
  .fail (.evaluation s!"no {what} labelled '{label}'")

def kept (drawer : Drawer) (label : String) : Program (Option Kept) :=
  .query (.kept drawer label)

def declared (label : String) : Program ObjectId := do
  match ← kept .objects label with
  | some (.object o) => return o
  | _ => missing "object" label

/-- The value under a label. -/
def value (label : String) : Program Value := do
  match ← kept .objects label with
  | some (.object o) => return .object o
  | _ =>
    match ← kept .changes label with
    | some (.change o) => return .object o
    | _ =>
      match ← kept .values label with
      | some (.value v) => return v
      | _ => missing "value" label

/-- The object of any kind under a label. -/
def object (label : String) : Program ObjectId := do
  match ← value label with
  | .object o => return o
  | _ => missing "object" label

def change (label : String) : Program ObjectId := do
  match ← kept .changes label with
  | some (.change o) => return o
  | _ => missing "change" label

def function (label : String) : Program FunctionRef := do
  match ← kept .functions label with
  | some (.function f) => return f
  | _ => missing "function" label

def registry (label : String) : Program RegistryRef := do
  match ← kept .registries label with
  | some (.registry r) => return r
  | _ => missing "registry" label

def scope (label : String) : Program Scope := do
  match ← kept .scopes label with
  | some (.scope s) => return s
  | _ => missing "scope" label

def tracer (label : String) : Program TracerRef := do
  match ← kept .tracers label with
  | some (.tracer t) => return t
  | _ => missing "tracer" label

def handler (label : String) : Program Handler := do
  match ← kept .handlers label with
  | some (.handler h) => return h
  | _ => missing "handler" label

def engine (label : String) : Program EngineRef := do
  match ← kept .engines label with
  | some (.engine e) => return e
  | _ => missing "engine" label

def subscription (label : String) : Program Subscription := do
  match ← kept .subscriptions label with
  | some (.subscription s) => return s
  | _ => missing "subscription" label

/-- A set of subscriptions; one that has not been made yet is empty. -/
def bundle (label : String) : Program (List Subscription) := do
  match ← kept .bundles label with
  | some (.bundle ss) => return ss
  | _ => return []

def keep (label : String) (k : Kept) : Program Unit := .request (.keep label k)

def release (drawer : Drawer) (label : String) : Program Unit := .request (.release drawer label)

/-! ### Allowance -/

/-- One step of a script, if the allowance is not used up. -/
def step {α : Type} (p : Program α) : Program α := do
  if ← Program.request .spend then p
  else .fail (.evaluation "driver fuel exhausted")

/-- The code of a body; every run costs one step. -/
def body (e : Expression) : Expression := fun s a => step (e s a)

/-- Runs a body in a scope, without a function around it. -/
def evaluate (e : Expression) : Expression := fun s a =>
  .holding (s.handles ++ a.handles) (body e s a)

/-! ### Literals -/

def newList (items : List Value) : Program Value := .request (.newList items)

def newMap (entries : List (String × Value)) : Program Value :=
  .request (.newMap (Dict.ofList entries))

def builtin (name : String) : Program Value :=
  match Builtin.layer.get? name with
  | some v => pure v
  | none => missing "builtin" name

/-- A native function that always returns the same value. -/
def constantNative (name : String) (v : Value) : Program Value :=
  .request (.newNative name [v] fun _ => pure v)

/-- A native function that returns its arguments in a list. -/
def argumentsNative (name : String) : Program Value :=
  .request (.newNative name [] newList)

/-- A native function that always fails. -/
def failingNative (name message : String) : Program Value :=
  .request (.newNative name [] fun _ => .fail (.evaluation message))

/-! ### Functions -/

def newFunction (name : String) (environment : Environment) (e : Expression) :
    Program FunctionRef :=
  .request (.newFunction name environment (body e))

/-- A key as given, or a fresh one. -/
def scopeKey (raw : Option Nat) : Program ScopeKey :=
  match raw with
  | some n => pure (.given n)
  | none => .request .freshKey

/-! ### Observers -/

/-- Puts a change on record, then runs steps; a failed step is put on record and does
not keep the others from running. -/
def watcher (label : String) (steps : List (Program Unit)) (change : ObjectId) : Program Unit := do
  if ← Program.request .spend then
    match ← Program.query (.change change) with
    | none => return ()
    | some c =>
      let owner ← Program.query (.describe c.owner)
      let old ← Program.query (.snapshot c.old)
      let new ← Program.query (.snapshot c.new)
      Program.request (.record (.observed label c.kind owner c.name old new))
      for p in steps do
        match ← p.attempt with
        | .ok _ => pure ()
        | .error e => Program.request (.record (.failed label e))

/-- Observes an attribute under a label. -/
def observe (r : RegistryRef) (name label : String) (steps : List (Program Unit)) :
    Program Unit := do
  let s ← Program.request (.subscribe r name (watcher label steps))
  keep label (.subscription s)

/-- Observes an attribute of an object; some objects cannot be observed. -/
def observeObject (o : ObjectId) (name label : String) (steps : List (Program Unit)) :
    Program Bool := do
  match ← Program.query (.registryOf o) with
  | some r =>
    observe r name label steps
    return true
  | none => return false

/-- Lets a subscription go and gives the name it observed. -/
def unsubscribe (label : String) : Program (Option String) := do
  match ← kept .subscriptions label with
  | some (.subscription s) =>
    release .subscriptions label
    return some s.name
  | _ => return none

/-- Moves a subscription into a set. -/
def hold (set label : String) : Program Unit := do
  let s ← subscription label
  let ss ← bundle set
  keep set (.bundle (ss ++ [s]))
  release .subscriptions label

/-! ### Objects -/

/-- The slot of local variables for a key, with more variables put in. -/
def slot (o : ObjectId) (key : ScopeKey) (locals : List (String × Value)) :
    Program (Dict String Value) := do
  let l ← Program.request (.localSlot o key)
  for (name, v) in locals do
    Program.request (.storeLocal l name v)
  Program.query (.layer l)

/-- The slot of local variables an object has for a key, or a private layer. -/
def layerFor (o : ObjectId) (key : ScopeKey) : Program LayerRef := do
  match ← Program.query (.localStorage o key) with
  | some l => return l
  | none => .request (.newLayer .empty)

/-- The engine under a label, or else that of a labelled object if it has one. -/
def engineOf (engineLabel objectLabel : Option String) : Program (Option EngineRef) := do
  match engineLabel, objectLabel with
  | some label, _ => return some (← engine label)
  | none, some label => .query (.engineOf (← declared label))
  | none, none => return none

end LiveBinding.Session
