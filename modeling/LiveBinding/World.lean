import LiveBinding.Program

/-! The world: everything that exists while programs run.

Things are cells of tables and are referred to by their place. A table only grows, so
a reference stays good; whether something is still held by anyone is a question about
the handles in the world (`World/Liveness.lean`), not about the tables. -/
namespace LiveBinding

/-- A named function callable from bodies, with the values it keeps alive. -/
structure Native where
  name : String
  captured : List Value
  code : List Value → Program Value

/-- The body of an expression and the module it was declared in. -/
structure Function where
  name : String
  environment : Environment
  code : Scope → Arguments → Program Value

/-- Code of the host that is given each change; nobody is told if it fails. -/
structure Watcher where
  code : ObjectId → Program Unit

structure World where
  objects : Array Entity
  lists : Array (List Value)
  maps : Array (Dict String Value)
  layers : Array (Dict String Value)
  natives : Array Native
  functions : Array Function
  tracers : Array Tracer
  registries : Array Registry
  watchers : Array Watcher
  links : Array Link
  engines : Array Engine
  /-- Fresh scope keys drawn so far. -/
  freshKeys : Nat
  /-- Bodies that are running. -/
  depth : Nat
  /-- The limit of the innermost engine at work. -/
  limit : Option Nat
  /-- What the operations in progress hold on to. -/
  held : List Handle
  hostVariables : Variables
  /-- The global configuration, once somebody has asked for it. -/
  config : Option Config
  log : Array LogEntry
  desk : Desk
  /-- Who has been told of which change, one after the other. No operation asks for it. -/
  told : Array (Observer × Option Change)

namespace World

/-- A world with nothing in it but the given native functions. -/
def initial (natives : Array Native) : World where
  objects := #[]
  lists := #[]
  maps := #[]
  layers := #[]
  natives := natives
  functions := #[]
  tracers := #[]
  registries := #[]
  watchers := #[]
  links := #[]
  engines := #[]
  freshKeys := 0
  depth := 0
  limit := none
  held := []
  hostVariables := {}
  config := none
  log := #[]
  desk := .initial
  told := #[]

/-! ### Looking things up -/

/-- Whether there is an object of that identity. -/
def has (w : World) (o : ObjectId) : Bool := decide (o.index < w.objects.size)

def entity? (w : World) (o : ObjectId) : Option Entity := w.objects[o.index]?

def declared? (w : World) (o : ObjectId) : Option Declared :=
  match w.entity? o with
  | some (.declared d) => some d
  | _ => none

def change? (w : World) (o : ObjectId) : Option Change :=
  match w.entity? o with
  | some (.change c) => some c
  | _ => none

def items (w : World) (r : ListRef) : List Value := (w.lists[r.index]?).getD []

def entries (w : World) (r : MapRef) : Dict String Value := (w.maps[r.index]?).getD .empty

def layer (w : World) (l : LayerRef) : Dict String Value := (w.layers[l.index]?).getD .empty

def nativeName (w : World) (f : NativeRef) : String :=
  match w.natives[f.index]? with
  | some n => n.name
  | none => ""

def functionName (w : World) (f : FunctionRef) : String :=
  match w.functions[f.index]? with
  | some g => g.name
  | none => ""

def functionEnvironment (w : World) (f : FunctionRef) : Environment :=
  match w.functions[f.index]? with
  | some g => g.environment
  | none => default

def tracer (w : World) (t : TracerRef) : Tracer := (w.tracers[t.index]?).getD default

def registry (w : World) (r : RegistryRef) : Registry := (w.registries[r.index]?).getD .empty

def engine (w : World) (e : EngineRef) : Engine := (w.engines[e.index]?).getD default

def typeName (w : World) (o : ObjectId) : String :=
  match w.entity? o with
  | some (.declared d) => d.typeName
  | some (.change _) => "Change"
  | some (.view ..) => "nonlocals"
  | none => ""

/-- An object's type and identity. -/
def describe (w : World) (o : ObjectId) : String := s!"{w.typeName o}#{o.number}"

/-- The name of a value's type. -/
def typeNameOf (w : World) : Value → String
  | .null => "NoneType"
  | .bool _ => "bool"
  | .int _ => "int"
  | .float _ => "float"
  | .str _ => "str"
  | .list _ => "list"
  | .map _ => "dict"
  | .object o => w.typeName o
  | .native _ => "builtin_function"
  | .tracer _ => "Tracer"

/-- Zeros and empty things are false; objects, functions and tracers are true. -/
def isTrue (w : World) : Value → Bool
  | .null => false
  | .bool b => b
  | .int i => i != 0
  | .float x => !x.isZero
  | .str s => !s.isEmpty
  | .list r => !(w.items r).isEmpty
  | .map r => !(w.entries r).entries.isEmpty
  | .object _ | .native _ | .tracer _ => true

/-- The stored value of an attribute; no binding is consulted. -/
def stored? (w : World) (o : ObjectId) (name : String) : Option Value :=
  (w.declared? o).bind fun d => d.values.get? name

def localStorage? (w : World) (o : ObjectId) (key : ScopeKey) : Option LayerRef :=
  (w.declared? o).bind fun d => d.storage.get? key

def registryOf? (w : World) (o : ObjectId) : Option RegistryRef :=
  (w.declared? o).map Declared.registry

def engineOf? (w : World) (o : ObjectId) : Option EngineRef :=
  (w.declared? o).bind Declared.engine

/-! ### Changing cells -/

def addObject (w : World) (e : Entity) : World × ObjectId :=
  ({w with objects := w.objects.push e}, ⟨w.objects.size⟩)

def addList (w : World) (items : List Value) : World × ListRef :=
  ({w with lists := w.lists.push items}, ⟨w.lists.size⟩)

def addMap (w : World) (entries : Dict String Value) : World × MapRef :=
  ({w with maps := w.maps.push entries}, ⟨w.maps.size⟩)

def addLayer (w : World) (locals : Dict String Value) : World × LayerRef :=
  ({w with layers := w.layers.push locals}, ⟨w.layers.size⟩)

def addNative (w : World) (n : Native) : World × NativeRef :=
  ({w with natives := w.natives.push n}, ⟨w.natives.size⟩)

def addFunction (w : World) (f : Function) : World × FunctionRef :=
  ({w with functions := w.functions.push f}, ⟨w.functions.size⟩)

def addTracer (w : World) (t : Tracer) : World × TracerRef :=
  ({w with tracers := w.tracers.push t}, ⟨w.tracers.size⟩)

def addRegistry (w : World) (r : Registry) : World × RegistryRef :=
  ({w with registries := w.registries.push r}, ⟨w.registries.size⟩)

def addWatcher (w : World) (c : Watcher) : World × WatcherRef :=
  ({w with watchers := w.watchers.push c}, ⟨w.watchers.size⟩)

def addLink (w : World) (l : Link) : World × LinkRef :=
  ({w with links := w.links.push l}, ⟨w.links.size⟩)

def addEngine (w : World) (e : Engine) : World × EngineRef :=
  ({w with engines := w.engines.push e}, ⟨w.engines.size⟩)

def modifyDeclared (w : World) (o : ObjectId) (f : Declared → Declared) : World :=
  { w with
    objects := w.objects.modify o.index fun
      | .declared d => .declared (f d)
      | other => other }

def modifyList (w : World) (r : ListRef) (f : List Value → List Value) : World :=
  {w with lists := w.lists.modify r.index f}

def modifyMap (w : World) (r : MapRef) (f : Dict String Value → Dict String Value) : World :=
  {w with maps := w.maps.modify r.index f}

def modifyLayer (w : World) (l : LayerRef) (f : Dict String Value → Dict String Value) : World :=
  {w with layers := w.layers.modify l.index f}

def modifyTracer (w : World) (t : TracerRef) (f : Tracer → Tracer) : World :=
  {w with tracers := w.tracers.modify t.index f}

def modifyRegistry (w : World) (r : RegistryRef) (f : Registry → Registry) : World :=
  {w with registries := w.registries.modify r.index f}

def modifyEngine (w : World) (e : EngineRef) (f : Engine → Engine) : World :=
  {w with engines := w.engines.modify e.index f}

def modifyDesk (w : World) (f : Desk → Desk) : World := {w with desk := f w.desk}

def addEntry (w : World) (e : LogEntry) : World := {w with log := w.log.push e}

/-- Puts down that an observer is told of a change. -/
def tell (w : World) (x : Observer) (change : ObjectId) : World :=
  {w with told := w.told.push (x, w.change? change)}

end World

end LiveBinding
