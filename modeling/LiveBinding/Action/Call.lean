import LiveBinding.Action

/-! Running the body of a function, and handlers.

A body runs one level deeper than its caller, and not at all past the limit in force:
the limit of the innermost engine at work, or else the global one. -/
namespace LiveBinding

/-! ### Configuration -/

/-- The global configuration. The first to ask for it reads the host's variables. -/
def globalConfig : Action Config := fun w =>
  match w.config with
  | some c => some (.ok c, w)
  | none =>
    let c := Config.ofVariables w.hostVariables
    some (.ok c, {w with config := some c})

/-- The limit on nested bodies in force. -/
def depthLimit : Action Nat := fun w =>
  match w.limit with
  | some n => some (.ok n, w)
  | none => (globalConfig.bind fun c => Action.succeed c.maxDepth) w

/-! ### Functions -/

/-- The code of a function applied to a scope and arguments. -/
def World.code (w : World) (f : FunctionRef) (s : Scope) (args : Arguments) : Program Value :=
  match w.functions[f.index]? with
  | some g => g.code s args
  | none => .done (.ok .null)

/-- Runs the code of a function as the world has it. -/
def runCode (self : Performer) (f : FunctionRef) (s : Scope) (args : Arguments) : Action Value :=
  fun w => (w.code f s args).run self w

/-- Calls a function in a scope, if the limit allows one more body. -/
def callFunction (self : Performer) (f : FunctionRef) (args : Arguments) (s : Scope) :
    Action Value := do
  Action.log (.callStarted (← Action.read (·.functionName f)) s.owner args.count)
  let limit ← depthLimit
  Action.nested do
    if limit < (← Action.read (·.depth)) then
      let object ← Action.read (·.describe s.owner)
      let name ← Action.read (·.functionName f)
      Action.throw (.recursionLimit object name limit)
    else
      Action.holding (.function f :: s.handles ++ args.handles) (runCode self f s args)

/-! ### Handlers -/

/-- A fresh scope for one evaluation. The locals are the owner's slot for the key, or a
private layer if the owner has no such slot. -/
def Handler.scope (h : Handler) (owner : ObjectId) : Action Scope := do
  let locals ← match ← Action.read (·.localStorage? owner h.key) with
    | some l => pure l
    | none => Action.add (·.addLayer .empty)
  let environment ← Action.read (·.functionEnvironment h.function)
  return ⟨owner, locals, environment, none, none⟩

/-- What an invocation is about. -/
def Invocation.handles : Invocation → List Handle
  | .read owner _ => [.object owner]
  | .write owner _ change => [.object owner, .object change]

/-- Serves one invocation and holds what it is about. Read handlers serve reads and write
handlers writes. -/
def Handler.invoke (self : Performer) (h : Handler) (i : Invocation) : Action Outcome :=
  Action.holding i.handles <| match h.kind, i with
  | .standardRead, .read owner _ => do
    let s ← h.scope owner
    return .value (← callFunction self h.function .none s)
  | .tracedRead, .read owner name => do
    let t ← Action.add (·.addTracer (.start owner name))
    let s ← h.scope owner
    let v ← callFunction self h.function (.traced t) {s with tracer := some t}
    return .traced v t
  | .standardWrite, .write owner _ change => do
    let s ← h.scope owner
    let _ ← callFunction self h.function .none {s with change := some change}
    return .written
  | .invertedWrite, .write owner _ change => do
    let s ← h.scope owner
    let v ← Action.read fun w => (w.change? change).elim .null Change.new
    let _ ← callFunction self h.function (.inverted s v) s
    return .written
  | kind, i => Action.throw (.operatorMismatch kind i.service)

/-- The value of a read; a tracer is dropped. -/
def Handler.read (self : Performer) (h : Handler) (owner : ObjectId) (name : String) :
    Action Value := do
  match ← h.invoke self (.read owner name) with
  | .value v | .traced v _ => return v
  | .written => Action.throw (.operatorMismatch h.kind .read)

/-- The value of a traced read and the tracer that recorded it. -/
def Handler.readTraced (self : Performer) (h : Handler) (owner : ObjectId) (name : String) :
    Action (Value × TracerRef) :=
  if h.kind = .tracedRead then do
    match ← h.invoke self (.read owner name) with
    | .traced v t => return (v, t)
    | _ => Action.throw (.operatorMismatch h.kind .tracedRead)
  else Action.throw (.operatorMismatch h.kind .tracedRead)

def Handler.write (self : Performer) (h : Handler) (owner : ObjectId) (name : String)
    (change : ObjectId) : Action Unit := do
  let _ ← h.invoke self (.write owner name change)

end LiveBinding
