import LiveBinding.Proofs.Assignment
import LiveBinding.Proofs.Route

/-! Delegated attributes.

A delegated attribute stands for an attribute at the end of a path. Its body loads the attributes
of the path one after the other, and a change of it is assigned through the path. The path may
lead elsewhere from time to time; whatever the latest evaluation has gone by is linked to the
attribute, and links lead nowhere else. -/
namespace LiveBinding

structure Delegation where
  start : World
  /-- The attribute that stands for another one. -/
  site : Dependency
  engine : EngineRef
  function : FunctionRef
  key : ScopeKey
  path : Path
  /-- What the root of the path means. -/
  root : ObjectId
  /-- The attribute at the end of the path. -/
  last : String

namespace Delegation
variable (D : Delegation)

/-! ### What is required -/

/-- Reads the attribute at the end of the path, and records what is read. -/
def load (s : Scope) (t : TracerRef) : Program Value := do
  loadEach t (D.path.hops ++ [D.last]) (← Program.request (.getName s D.path.root))

/-- Assigns a value to the attribute at the end of the path. Some bodies look at the root first. -/
def push (looks : Bool) (s : Scope) (v : Value) : Program Value := do
  if looks then let _ ← Program.request (.getName s D.path.root)
  Program.request (.invert s (.attr D.path D.last) v)
  return .null

/-- The attribute at the end of a path that leads to an object. -/
def goal (o : ObjectId) : Dependency := ⟨o, D.last⟩

/-- The path leads to an object by way of some attributes. There its last attribute can be
assigned and is not bound. The delegated attribute is not on the way. -/
structure Open (w : World) (ds : List Dependency) (o : ObjectId) : Prop where
  route : w.Route (.object D.root) D.path.hops ds (.object o)
  assignable : w.Assignable (D.goal o)
  unbound : ∀ {e}, w.engineOf? o = some e → (w.engine e).bindings.get? D.last = none
  away : D.site ∉ ds ++ [D.goal o]

/-- What a delegated attribute is in the beginning. -/
structure Described : Prop where
  reachable : Reachable D.start
  whole : D.start.Whole
  known : ∀ {d v}, D.start.valueOf? d = some v → D.start.Known v
  watched : D.start.Watched
  /-- Nothing is evaluated yet. -/
  unlinked : D.start.links = #[]
  /-- The host keeps the object. -/
  kept : Handle.object D.site.object ∈ D.start.desk.kept.entries.flatMap fun e => e.2.handles
  engine : D.start.engineOf? D.site.object = some D.engine
  bound : (D.start.engine D.engine).bindings.get? D.site.name =
    some (Operator.delegate.bind D.function D.key)
  limited : 2 ≤ (D.start.engine D.engine).config.maxDepth
  declared : D.start.Attribute D.site
  unset : D.start.valueOf? D.site = none
  /-- No other attribute of the object waits for its first value. -/
  alone : ∀ {name}, (D.start.engine D.engine).hasReader name = true → name ≠ D.site.name →
    (D.start.valueOf? ⟨D.site.object, name⟩).isSome
  code : ∃ g, D.start.functions[D.function.index]? = some g ∧
    (∀ s t, g.code s (.traced t) = D.load s t) ∧
    ∀ s v, ∃ looks, g.code s (.inverted s v) = D.push looks s v
  /-- The root of the path means what it means in the module. -/
  surroundings : ∃ c, D.start.surroundingsFor? D.site.object ⟨.tracedRead, D.function, D.key⟩ =
    some c ∧ c.locals.get? D.path.root = none ∧
      c.environment.globals.get? D.path.root = some (.object D.root)
  lacks : D.start.Lacks D.path.root D.site.object
  plain : ∀ r, Reserved.ofName? D.path.root = some r → r = .change
  distinct : D.last ∉ D.path.hops
  opened : ∃ ds o, D.Open D.start ds o

/-- Reads of the attribute subscribe to what they consult. -/
structure Sound : Prop extends D.Described where
  traced : (D.start.engine D.engine).config.traceSubscriptions = true

/-! ### What stays in order -/

def link : Link := ⟨D.engine, D.site.object, D.site.name⟩

/-- All links are for the delegated attribute, and none observes it. -/
structure Inv (w : World) : Prop where
  grows : D.start.Extends w
  whole : w.Whole
  known : ∀ {d v}, w.valueOf? d = some v → w.Known v
  ledger : w.Ledger
  linked : ∀ {d r l}, w.registryOf? d.object = some r →
    0 < (w.registry r).appearances d.name (.link l) →
    w.links[l.index]? = some D.link ∧ d ≠ D.site
  fresh : ∀ {name l r a}, l ∈ (w.engine D.engine).linksOf name →
    (a, .link l) ∉ (w.registry r).forgotten
  /-- No other engine has links. -/
  only : ∀ {e name l}, l ∈ (w.engine e).linksOf name → e = D.engine

/-- The latest evaluation went by some attributes. -/
def Consulted (w : World) (ds : List Dependency) : Prop :=
  ∃ v, (w.engine D.engine).latest D.site.name = some v ∧ v.owner = D.site.object ∧
    ∀ d ∈ ds, w.Attribute d → d ∈ v.consulted

/-- The delegated attribute has the value of the other one, if it has one. -/
def Agrees (w : World) (o : ObjectId) : Prop :=
  ∀ v, w.valueOf? D.site = some v → w.Matches v (w.valuation (D.goal o))

variable {D} {w w' : World} {ds : List Dependency} {o : ObjectId} {a d : Dependency} {n : Nat}

namespace Open

/-- Nothing changes for a path while the attributes on it have the same values. -/
theorem keep (opened : D.Open w ds o) (grows : w.Extends w')
    (same : ∀ d ∈ ds, w'.valueOf? d = w.valueOf? d) : D.Open w' ds o where
  route := opened.route.mono grows same
  assignable := opened.assignable.mono grows
  unbound engine := by
    rw [grows.engineOf?] at engine
    rw [grows.bindings]
    exact opened.unbound engine
  away := opened.away

theorem slight (opened : D.Open w ds o) (slight : w.Slight n w') : D.Open w' ds o :=
  opened.keep slight.grows fun d _ => slight.valueOf? d

theorem unique (opened : D.Open w ds o) {es : List Dependency} {p : ObjectId}
    (other : D.Open w es p) : ds = es ∧ o = p := by
  obtain ⟨same, ends⟩ := opened.route.unique other.route
  cases ends
  exact ⟨same, rfl⟩

/-- The end of the path has another name than the attributes on the way. -/
theorem goal_not_mem (sound : D.Sound) (opened : D.Open w ds o) : D.goal o ∉ ds :=
  fun mem => sound.distinct (opened.route.name_mem mem)

theorem ne_site (opened : D.Open w ds o) (mem : a ∈ ds ++ [D.goal o]) : a ≠ D.site := by
  rintro rfl
  exact opened.away mem

theorem goal_mem : D.goal o ∈ ds ++ [D.goal o] := List.mem_append_right _ List.mem_cons_self

theorem shows (opened : D.Open w ds o) : w.Shows (D.goal o) (w.valuation (D.goal o)) := by
  cases value : w.valueOf? (D.goal o) with
  | some v =>
    rw [World.valuation, value]
    exact .stored value
  | none =>
    rw [World.valuation, value]
    refine .free opened.assignable.attribute value ?_
    rw [Option.eq_none_iff_forall_ne_some]
    rintro ⟨e, h⟩ handler
    obtain ⟨engine, reader⟩ := World.handlerOf?_eq_some.1 handler
    rw [show (w.engine e).bindings.get? (D.goal o).name = none from opened.unbound engine] at reader
    cases reader

/-- The whole path leads to the value at its end. -/
theorem full (opened : D.Open w ds o) : w.Route (.object D.root) (D.path.hops ++ [D.last])
    (ds ++ [D.goal o]) (w.valuation (D.goal o)) :=
  opened.route.append (.hop opened.shows (.here _))

end Open

namespace Inv

theorem step (inv : D.Inv w) (grows : w.Extends w') (still : w.Still w')
    (whole : w.Whole → w'.Whole) (known : ∀ {d v}, w'.valueOf? d = some v → w'.Known v)
    (forgotten : ∀ {name l r a}, l ∈ (w.engine D.engine).linksOf name →
      (a, .link l) ∈ (w'.registry r).forgotten → (a, .link l) ∈ (w.registry r).forgotten) :
    D.Inv w' where
  grows := inv.grows.trans grows
  whole := whole inv.whole
  known := known
  ledger := still.ledger inv.ledger
  linked found appears := by
    rw [still.registryOf?] at found
    rw [still.appearances] at appears
    rw [still.links]
    exact inv.linked found appears
  fresh held gone := by
    rw [Engine.linksOf, still.linksOf] at held
    exact inv.fresh held (forgotten held gone)
  only held := by
    rw [Engine.linksOf, still.linksOf] at held
    exact inv.only held

theorem slight (sound : D.Sound) (inv : D.Inv w) (slight : w.Slight n w') : D.Inv w' := by
  refine inv.step slight.grows slight.still slight.whole (fun here => ?_) fun held gone => ?_
  · rw [slight.valueOf?] at here
    exact (inv.known here).mono slight.grows
  · have engine := (inv.grows.engineOf? D.site.object).trans sound.engine
    exact slight.forgotten engine held gone

theorem alter (inv : D.Inv w) (alters : World.Alters a w w')
    (known : ∀ v, w'.valueOf? a = some v → w'.Known v) : D.Inv w' := by
  refine inv.step alters.grows alters.still alters.whole (fun {d v} here => ?_) fun _ gone => ?_
  · by_cases same : d = a
    · exact known v (same ▸ here)
    · rw [alters.others d same] at here
      exact (inv.known here).mono alters.grows
  · rwa [World.registry, alters.registries] at gone

theorem relinked (inv : D.Inv w) {consulted : List Dependency} {t : TracerRef}
    {ls : List LinkRef}
    (relinked : w.Relinked w' D.engine D.site.name ⟨D.site.object, consulted, w.links.size⟩ t ls)
    (ledger : w'.Ledger) : D.Inv w' where
  grows := inv.grows.trans relinked.grows
  whole := by
    obtain ⟨_, _, _, _, _, rest⟩ := relinked.rest
    rw [rest]
    exact ⟨inv.whole.items, inv.whole.entries⟩
  known here := by
    rw [relinked.valueOf?] at here
    exact (inv.known here).mono relinked.grows
  ledger := ledger
  linked found appears := by
    rcases relinked.listed ledger found appears with old | ⟨made, _, other⟩
    · rw [relinked.linked.registryOf?] at found
      obtain ⟨made, other⟩ := inv.linked found old
      exact ⟨relinked.linked.links made, other⟩
    · refine ⟨made, ?_⟩
      rintro rfl
      exact other ⟨rfl, rfl⟩
  fresh := relinked.fresh rfl inv.ledger.tidy ledger inv.fresh
  only {e name l} held := by
    by_cases same : D.engine = e
    · exact same.symm
    · rw [relinked.others e same] at held
      exact inv.only held

end Inv

end Delegation

end LiveBinding
