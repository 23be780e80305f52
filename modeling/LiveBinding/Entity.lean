import LiveBinding.Config
import LiveBinding.Handler
import LiveBinding.Scope

/-! What the world is made of besides values: objects, observers, tracers, engines. -/
namespace LiveBinding

/-! ### Changes -/

inductive ChangeKind where
  /-- The first value of an attribute. -/
  | create
  | update
  | delete
  /-- A notification that stores nothing. -/
  | event
deriving DecidableEq, Repr, Inhabited

namespace ChangeKind

def text : ChangeKind → String
  | create => "create"
  | update => "update"
  | delete => "delete"
  | event => "event"

def all : List ChangeKind := [create, update, delete, event]

def ofText? (s : String) : Option ChangeKind := all.find? fun k => k.text = s

end ChangeKind

/-- A mutation of one attribute of one object. -/
structure Change where
  kind : ChangeKind
  owner : ObjectId
  name : String
  old : Value
  new : Value
deriving DecidableEq, Inhabited

/-- The attributes a change shows to bodies. -/
def Change.attribute? (c : Change) (name : String) : Option Value :=
  if name = "type" then some (.str c.kind.text)
  else if name = "object" then some (.object c.owner)
  else if name = "name" then some (.str c.name)
  else if name = "oldvalue" then some c.old
  else if name = "value" then some c.new
  else none

/-! ### Objects -/

/-- An object with declared attributes. A name is an attribute if it has a value or is
a member. The parent is not kept alive by its children. -/
structure Declared where
  typeName : String
  parent : Option ObjectId
  members : List String
  constants : List String
  values : Dict String Value
  storage : Dict ScopeKey LayerRef
  registry : RegistryRef
  /-- Configuration of the engine, once there is one; the global one if absent. -/
  config : Option Config
  engine : Option EngineRef
deriving Inhabited

namespace Declared

def hasAttribute (d : Declared) (name : String) : Bool :=
  d.values.contains name || d.members.contains name

def isConstant (d : Declared) (name : String) : Bool := d.constants.contains name

def declare (d : Declared) (name : String) : Declared :=
  if d.members.contains name then d else {d with members := d.members ++ [name]}

end Declared

/-- The kinds of object. -/
inductive Entity where
  | declared (d : Declared)
  | change (c : Change)
  /-- The attributes of an owner and its parents, without any other layer. -/
  | view (owner : ObjectId) (tracer : Option TracerRef)
deriving Inhabited

/-! ### Observers -/

/-- Who hears of the changes of an attribute. -/
inductive Observer where
  | watcher (c : WatcherRef)
  | link (l : LinkRef)
deriving DecidableEq, Inhabited

/-- Keeps one watcher on one attribute for as long as it is held. -/
structure Subscription where
  name : String
  watcher : WatcherRef
deriving DecidableEq, Inhabited

/-- The bound attribute to evaluate again when something it consulted changes. A link
keeps neither the engine nor the owner alive. -/
structure Link where
  engine : EngineRef
  owner : ObjectId
  name : String
deriving DecidableEq, Inhabited

/-- The observers of each attribute, in order of registration. The registry does not
keep them alive, and those that a notification finds dropped are taken off the list.
What was taken off is remembered, but no operation asks for it. -/
structure Registry where
  slots : Dict String (List Observer)
  forgotten : List (String × Observer)
deriving Inhabited

namespace Registry

def empty : Registry := ⟨.empty, []⟩

def observers (r : Registry) (name : String) : List Observer := (r.slots.get? name).getD []

def add (r : Registry) (name : String) (x : Observer) : Registry :=
  {r with slots := r.slots.insert name (r.observers name ++ [x])}

/-- Forgets the observers of one attribute that fail a test. -/
def prune (r : Registry) (name : String) (keep : Observer → Bool) : Registry :=
  match r.slots.get? name with
  | some xs =>
    { slots := r.slots.insert name (xs.filter keep)
      forgotten := (xs.filter fun x => !keep x).map (name, ·) ++ r.forgotten }
  | none => r

end Registry

/-! ### Tracers -/

structure Dependency where
  object : ObjectId
  name : String
deriving DecidableEq, Repr, Inhabited

/-- What tells dependencies apart. -/
def Dependency.key (d : Dependency) : ObjectId × String := (d.object, d.name)

theorem Dependency.key_inj {d d' : Dependency} : d.key = d'.key ↔ d = d' := by
  cases d
  cases d'
  simp [key]

/-- Records what the evaluation of one attribute consults, once each, in the order of
the first consultation. The keys of what is on record are kept beside the list, and
the two agree. -/
structure Tracer where
  owner : ObjectId
  name : String
  dependencies : List Dependency
  seen : Dict (ObjectId × String) Unit
  seen_iff : ∀ d : Dependency, seen.contains d.key = true ↔ d ∈ dependencies

namespace Tracer

def start (owner : ObjectId) (name : String) : Tracer where
  owner := owner
  name := name
  dependencies := []
  seen := .empty
  seen_iff d := by simp

instance : Inhabited Tracer := ⟨.start default ""⟩

def contains (t : Tracer) (d : Dependency) : Bool := t.seen.contains d.key

/-- Only the keys are asked whether a dependency is new. -/
def record (t : Tracer) (d : Dependency) : Tracer :=
  if t.contains d then t
  else
    { t with
      dependencies := t.dependencies ++ [d]
      seen := t.seen.insert d.key ()
      seen_iff := fun d' => by
        rw [Dict.contains_insert, t.seen_iff, Dependency.key_inj, List.mem_append,
          List.mem_singleton, eq_comm, or_comm] }

/-- Starts over. -/
def drain (t : Tracer) : Tracer :=
  { t with
    dependencies := []
    seen := .empty
    seen_iff := fun d => by simp }

theorem contains_iff (t : Tracer) (d : Dependency) : t.contains d = true ↔ d ∈ t.dependencies :=
  t.seen_iff d

theorem dependencies_record_eq (t : Tracer) (d : Dependency) :
    (t.record d).dependencies =
      if d ∈ t.dependencies then t.dependencies else t.dependencies ++ [d] := by
  simp only [record, apply_ite Tracer.dependencies, contains_iff]

theorem record_nodup {t : Tracer} (d : Dependency) (h : t.dependencies.Nodup) :
    (t.record d).dependencies.Nodup := by
  rw [dependencies_record_eq]
  split
  · exact h
  · next hd =>
    refine List.nodup_append.mpr ⟨h, by simp, ?_⟩
    intro a ha b hb he
    rw [List.mem_singleton.mp hb] at he
    exact hd (he ▸ ha)

end Tracer

/-! ### Engines -/

/-- Something that happened to the bindings of an engine. -/
inductive Milestone where
  | bound (name : String)
  /-- A traced evaluation succeeded: the attributes it consulted, and how many links
  there were by then. -/
  | evaluated (name : String) (owner : ObjectId) (consulted : List Dependency) (links : Nat)
  /-- All links were given up. -/
  | cleared
deriving DecidableEq, Inhabited

/-- The bindings of an owner's attributes and the links they hold. While a name is
guarded, changes of that attribute are not written back. The history has the latest
milestone first; no operation asks for it. -/
structure Engine where
  config : Config
  bindings : Dict String Binding
  links : Dict String (List LinkRef)
  guards : List String
  history : List Milestone
deriving Inhabited

namespace Engine

def start (config : Config) : Engine := ⟨config, .empty, .empty, [], []⟩

def note (e : Engine) (m : Milestone) : Engine := {e with history := m :: e.history}

def hasReader (e : Engine) (name : String) : Bool :=
  match e.bindings.get? name with
  | some b => b.read.isSome
  | none => false

/-- The links of a bound attribute to what its latest evaluation consulted. -/
def linksOf (e : Engine) (name : String) : List LinkRef := (e.links.get? name).getD []

/-- Bound names in ascending order. -/
def names (e : Engine) : List String := e.bindings.keys.mergeSort fun a b => decide (a ≤ b)

/-- Replaces the binding of a name; links of an earlier one are dropped. -/
def addBinding (e : Engine) (name : String) (b : Binding) : Engine :=
  { e with
    bindings := e.bindings.insert name b
    links := if e.bindings.contains name then e.links.erase name else e.links
    history := .bound name :: e.history }

/-- Gives up all links. -/
def clear (e : Engine) : Engine := {e with links := .empty, history := .cleared :: e.history}

end Engine

end LiveBinding
