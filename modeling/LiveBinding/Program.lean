import LiveBinding.Handle
import LiveBinding.Journal

/-! Programs: trees of requests to the world.

The code of an expression, of a native function or of an observer is a `Program`: it
is done with a value or a failure, or it asks for something and goes on with the
answer. A program reaches the world only through requests, so whatever holds of every
request holds of every program. -/
namespace LiveBinding

/-- What can be learnt without changing anything. -/
inductive Query : Type → Type where
  | typeName (v : Value) : Query String
  | isTrue (v : Value) : Query Bool
  | equal (a b : Value) : Query Bool
  | text (v : Value) : Query String
  | snapshot (v : Value) : Query Snapshot
  | items (r : ListRef) : Query (List Value)
  | entries (r : MapRef) : Query (Dict String Value)
  | nativeName (f : NativeRef) : Query String
  | describe (o : ObjectId) : Query String
  | hasAttribute (o : ObjectId) (name : String) : Query Bool
  | stored (o : ObjectId) (name : String) : Query (Option Value)
  | parent (o : ObjectId) : Query (Option ObjectId)
  | localStorage (o : ObjectId) (key : ScopeKey) : Query (Option LayerRef)
  | layer (l : LayerRef) : Query (Dict String Value)
  | registryOf (o : ObjectId) : Query (Option RegistryRef)
  | engineOf (o : ObjectId) : Query (Option EngineRef)
  | change (o : ObjectId) : Query (Option Change)
  | visible (s : Scope) (name : String) : Query Bool
  | functionName (f : FunctionRef) : Query String
  | functionEnvironment (f : FunctionRef) : Query Environment
  | tracer (t : TracerRef) : Query Tracer
  | observerCount (r : RegistryRef) (name : String) : Query Nat
  | observedNames (r : RegistryRef) : Query Nat
  | engine (e : EngineRef) : Query Engine
  | variablesConfig : Query Config
  | kept (drawer : Drawer) (label : String) : Query (Option Kept)
  | scopeText (s : Scope) : Query String
  | inverterText (s : Scope) : Query String
  | tracerText (t : TracerRef) : Query String
  | changeText (o : ObjectId) : Query String

/-- What an object is built from. Members are attributes without a value, and a
constant stands before an attribute of the same name. -/
structure Blueprint where
  typeName : String
  parent : Option ObjectId
  attributes : Dict String Value
  members : List String
  constants : Dict String Value
  storage : Dict ScopeKey (Dict String Value)
  config : Option Config
deriving Inhabited

mutual

/-- What a program can ask for; the index is the type of the answer. -/
inductive Request : Type → Type 1 where
  | query {α : Type} (q : Query α) : Request α
  /-- Runs a program and holds on to things until it ends. -/
  | holding {α : Type} (hs : List Handle) (p : Program α) : Request α
  | newList (items : List Value) : Request Value
  | newMap (entries : Dict String Value) : Request Value
  /-- A native function that keeps some values alive. -/
  | newNative (name : String) (captured : List Value) (code : List Value → Program Value) :
      Request Value
  /-- Reads an attribute that has to exist. -/
  | getAttr (v : Value) (name : String) : Request Value
  | setAttr (v : Value) (name : String) (x : Value) : Request Unit
  | getItem (v key : Value) : Request Value
  | setItem (v key x : Value) : Request Unit
  | call (f : Value) (args : List Value) : Request Value
  | newObject (b : Blueprint) : Request ObjectId
  | newChange (c : Change) : Request ObjectId
  /-- Reads an attribute that may be missing. -/
  | readAttr (o : ObjectId) (name : String) : Request (Option Value)
  /-- Fires a change that stores nothing. -/
  | emit (o : ObjectId) (name : String) (v : Value) : Request Unit
  /-- Drops the stored value of an attribute. -/
  | clear (o : ObjectId) (name : String) : Request Unit
  /-- Evaluates the bound attributes of an object that have no value. -/
  | populate (o : ObjectId) : Request Unit
  | bind (o : ObjectId) (name : String) (op : Operator) (f : FunctionRef) (key : ScopeKey) :
      Request Unit
  /-- The slot of local variables for a key, made if there is none. -/
  | localSlot (o : ObjectId) (key : ScopeKey) : Request LayerRef
  | newLayer (locals : Dict String Value) : Request LayerRef
  | storeLocal (l : LayerRef) (name : String) (v : Value) : Request Unit
  | getName (s : Scope) (name : String) : Request Value
  | setName (s : Scope) (name : String) (v : Value) : Request Unit
  | delName (s : Scope) (name : String) : Request Unit
  /-- Assigns a value through the shape of an expression. -/
  | invert (s : Scope) (target : Target) (v : Value) : Request Unit
  | newFunction (name : String) (environment : Environment)
      (code : Scope → Arguments → Program Value) : Request FunctionRef
  | callFunction (f : FunctionRef) (args : Arguments) (s : Scope) : Request Value
  | freshKey : Request ScopeKey
  | newRegistry : Request RegistryRef
  | subscribe (r : RegistryRef) (name : String) (code : ObjectId → Program Unit) :
      Request Subscription
  /-- Delivers a change and counts the observers that heard of it. -/
  | notify (r : RegistryRef) (change : ObjectId) : Request Nat
  | newTracer (owner : ObjectId) (name : String) : Request TracerRef
  | trace (t : TracerRef) (o : ObjectId) (name : String) : Request Unit
  /-- Reads an attribute and records the read. -/
  | loadAttr (t : TracerRef) (v : Value) (name : String) : Request Value
  /-- Calls a function and records the attribute it read, if it reads one. -/
  | callTraced (t : TracerRef) (f : Value) (args : List Value) : Request Value
  /-- What a tracer has recorded; the tracer starts over. -/
  | finalize (t : TracerRef) : Request (List Dependency)
  | invoke (h : Handler) (i : Invocation) : Request Outcome
  | readWith (h : Handler) (owner : ObjectId) (name : String) : Request Value
  | readTraced (h : Handler) (owner : ObjectId) (name : String) : Request (Value × TracerRef)
  | writeWith (h : Handler) (owner : ObjectId) (name : String) (change : ObjectId) : Request Unit
  /-- An engine with its own configuration, or with the global one. -/
  | newEngine (config : Option Config) : Request EngineRef
  | addBinding (e : EngineRef) (name : String) (op : Operator) (f : FunctionRef) (key : ScopeKey) :
      Request Unit
  | readBinding (e : EngineRef) (owner : ObjectId) (name : String) : Request (Option Value)
  | writeBinding (e : EngineRef) (owner : ObjectId) (name : String) (change : ObjectId) :
      Request Unit
  /-- Reads a bound attribute again and assigns the result to it. -/
  | updateBinding (e : EngineRef) (owner : ObjectId) (name : String) : Request Unit
  | clearSubscriptions (e : EngineRef) : Request Unit
  | globalConfig : Request Config
  | setGlobalConfig (c : Config) : Request Unit
  /-- Sets the variables that are given and leaves the others. -/
  | setVariables (v : Variables) : Request Unit
  /-- Keeps something under a label; what the label stood for is let go. -/
  | keep (label : String) (k : Kept) : Request Unit
  | release (drawer : Drawer) (label : String) : Request Unit
  /-- Puts an event on record. -/
  | record (e : Event) : Request Unit
  /-- Uses up one unit of the allowance, if there is any left. -/
  | spend : Request Bool

/-- Code that may ask the world. An answer is a value or the failure of the request. -/
inductive Program : Type → Type 1 where
  | done {α : Type} (r : Except BindError α) : Program α
  | ask {α β : Type} (q : Request β) (k : Except BindError β → Program α) : Program α

end

namespace Program
variable {α β : Type}

instance : Inhabited (Program α) := ⟨.done (.error default)⟩

/-- Goes on with the value; a failure ends the program. -/
def bind : Program α → (α → Program β) → Program β
  | .done (.ok a), f => f a
  | .done (.error e), _ => .done (.error e)
  | .ask q k, f => .ask q fun r => (k r).bind f

instance : Monad Program where
  pure a := .done (.ok a)
  bind := bind

def fail (e : BindError) : Program α := .done (.error e)

/-- Turns a failure into an answer. -/
def attempt : Program α → Program (Except BindError α)
  | .done r => .done (.ok r)
  | .ask q k => .ask q fun r => (k r).attempt

/-- Asks once; a failed request fails the program. -/
def request (q : Request β) : Program β := .ask q .done

def query (q : Query β) : Program β := request (.query q)

/-- Holds on to things until a program ends. -/
def holding (hs : List Handle) (p : Program α) : Program α :=
  match hs with
  | [] => p
  | hs => request (.holding hs p)

end Program

end LiveBinding
