import LiveBinding.Proofs.Assignment
import LiveBinding.Proofs.Looking
import LiveBinding.Proofs.Runs

/-! Where values are put.

An assignment puts a value in one place: an attribute of an object, an item of a list, an entry of
a map, or a variable. Nothing else gets another value by it, as long as nobody observes the
attribute and it is not bound. -/
namespace LiveBinding

/-- A place for a value. -/
inductive Location where
  | attr (a : Dependency)
  | item (r : ListRef) (place : Nat)
  | entry (r : MapRef) (key : String)
  | slot (l : LayerRef) (name : String)
deriving DecidableEq

namespace World
variable {w u : World} {g h : Handle} {a : Dependency} {v : Value} {ℓ : Location}

/-- What is in a place, if anything. -/
def content (w : World) : Location → Option Value
  | .attr a => w.valueOf? a
  | .item r i => (w.items r)[i]?
  | .entry r key => (w.entries r).get? key
  | .slot l name => (w.layer l).get? name

/-- A value has been put in a place, or one that is equal has been left there. There may be new
objects, but none that have attributes of their own. -/
structure Puts (w : World) (ℓ : Location) (v : Value) (u : World) : Prop where
  confines : w.Confines u
  roots : ∀ h ∈ w.roots, h ∈ u.roots
  object : ∀ {o}, o.index < w.objects.size → SameObject (w.entity? o) (u.entity? o)
  new : ∀ {o}, w.objects.size ≤ o.index → u.declared? o = none
  others : ∀ ℓ', ℓ' ≠ ℓ → u.content ℓ' = w.content ℓ'
  here : u.content ℓ = some v ∨
    u.content ℓ = w.content ℓ ∧ ∃ old, w.content ℓ = some old ∧ u.equal old v = true
  objects : w.objects.size ≤ u.objects.size
  maps : u.maps.size = w.maps.size
  layers : u.layers.size = w.layers.size
  natives : u.natives = w.natives
  engines : u.engines = w.engines
  desk : u.desk = w.desk

namespace Surveys
variable (surveys : w.Surveys u)
include surveys

theorem content (ℓ : Location) : u.content ℓ = w.content ℓ := by
  cases ℓ with
  | attr a => exact surveys.valueOf? a
  | item r i => rw [World.content, World.content, items, items, surveys.lists]
  | entry r key => rw [World.content, World.content, entries, entries, surveys.maps]
  | slot l name => rw [World.content, World.content, layer, layer, surveys.layers]

/-- An equal value is left where it is. -/
theorem left {old : Value} (here : w.content ℓ = some old) (equal : u.equal old v = true) :
    w.Puts ℓ v u where
  confines := surveys.confines
  roots := surveys.roots
  object old := by
    rw [surveys.entity old]
    exact .same _
  new := surveys.new
  others ℓ' _ := surveys.content ℓ'
  here := .inr ⟨surveys.content ℓ, old, here, equal⟩
  objects := surveys.more
  maps := by rw [surveys.maps]
  layers := by rw [surveys.layers]
  natives := surveys.natives
  engines := surveys.engines
  desk := surveys.desk

end Surveys

/-- Somebody lets go again. -/
theorem Puts.release {u' : World} (puts : w.Puts ℓ v u') (surveys : w.Surveys u) :
    w.Puts ℓ v {u' with held := u.held} where
  confines.roots h root := by
    rcases List.mem_append.1 root with kept | held
    · exact puts.confines.roots h (List.mem_append_left _ kept)
    · exact surveys.confines.roots h (List.mem_append_right _ held)
  confines.edges := puts.confines.edges
  roots h root := by
    rcases List.mem_append.1 (surveys.roots h root) with kept | held
    · refine List.mem_append_left _ ?_
      rw [surveys.desk] at kept
      show h ∈ u'.desk.kept.entries.flatMap _
      rw [puts.desk]
      exact kept
    · exact List.mem_append_right _ held
  object := puts.object
  new := puts.new
  others := puts.others
  here := puts.here.imp_right fun ⟨same, old, before, equal⟩ => ⟨same, old, before, by
    rw [← equal]
    exact equal_congr (by rfl) (by rfl) old v⟩
  objects := puts.objects
  maps := puts.maps
  layers := puts.layers
  natives := puts.natives
  engines := puts.engines
  desk := puts.desk

/-! ### What is held after a value has been put somewhere -/

theorem mem_handles_insert {κ : Type} [DecidableEq κ] {d : Dict κ Value} {k : κ}
    (mem : h ∈ (d.insert k v).handles) : h ∈ d.handles ∨ h ∈ v.handles := by
  obtain ⟨⟨k', x⟩, entry, inside⟩ := List.mem_flatMap.1 mem
  have found := (Dict.get?_eq_some (d := d.insert k v)).2 entry
  rw [Dict.get?_insert] at found
  split at found
  · cases found
    exact .inr inside
  · exact .inl (List.mem_flatMap.2 ⟨_, Dict.get?_eq_some.1 found, inside⟩)

theorem holds_store (held : (u.store a v).Holds g h) : u.Holds g h ∨ h ∈ v.handles := by
  obtain ⟨there, mem⟩ := held
  have here : g ∈ u.holders := by
    rw [mem_holders] at there ⊢
    cases g with
    | object o => exact Nat.lt_of_lt_of_eq there Array.size_modify
    | _ => exact there
  cases g with
  | object o =>
    simp only [holds, store, entity?_modifyDeclared] at mem
    split at mem
    · rcases entity : u.entity? o with _ | d | c | ⟨p, t⟩
      · rw [entity] at mem
        cases mem
      · rw [entity] at mem
        change h ∈ (d.values.insert a.name v).handles ++ d.storage.entries.map _ ++ _ at mem
        have before (mem : h ∈ (Entity.declared d).handles) : u.Holds (.object o) h :=
          ⟨here, by rw [holds, entity]; exact mem⟩
        rcases List.mem_append.1 mem with mem | engine
        · rcases List.mem_append.1 mem with values | storage
          · refine (mem_handles_insert values).imp_left fun old => before ?_
            exact List.mem_append_left _ (List.mem_append_left _ old)
          · exact .inl (before (List.mem_append_left _ (List.mem_append_right _ storage)))
        · exact .inl (before (List.mem_append_right _ engine))
      · rw [entity] at mem
        exact .inl ⟨here, by rw [holds, entity]; exact mem⟩
      · rw [entity] at mem
        exact .inl ⟨here, by rw [holds, entity]; exact mem⟩
    · exact .inl ⟨here, mem⟩
  | _ => exact .inl ⟨here, mem⟩

theorem Confines.hold {hs : List Handle} (confines : w.Confines u)
    (near : ∀ h ∈ hs, w.isLive h = true ∨ w.Young h) : w.Confines (u.hold hs) where
  roots h root := by
    rcases List.mem_append.1 root with kept | held
    · exact confines.roots h (List.mem_append_left _ kept)
    · rcases List.mem_append.1 held with new | before
      · exact near h new
      · exact confines.roots h (List.mem_append_right _ before)
  edges := confines.edges

/-- Whoever was not there to observe does not come back to do so. -/
theorem Confines.liveObservers {xs : List Observer} (confines : w.Confines u)
    (nobody : w.liveObservers xs = []) : u.liveObservers xs = [] := by
  refine List.filter_eq_nil_iff.2 fun x mem live => ?_
  refine isLive_iff.1 live (confines.dropped ?_ ?_)
  · by_contra stays
    exact List.filter_eq_nil_iff.1 nobody x mem (isLive_iff.2 stays)
  · cases x <;> exact id

/-! ### Changes that nobody hears of -/

theorem declared?_announce (w : World) (c : Change) (o : ObjectId) :
    (w.announce c).declared? o = w.declared? o := by
  refine (w.declared?_addObject (.change c) o).trans ?_
  split
  · next last => exact (w.declared?_of_size_le (Nat.le_of_eq last.symm)).symm
  · rfl

/-- A notification that finds nobody leaves no trace but in its registry and in the log. -/
theorem notify_nobody {r : RegistryRef} {change : ObjectId} {c : Change}
    (known : w.change? change = some c)
    (nobody : w.liveObservers ((w.registry r).observers c.name) = []) :
    ∃ registries log, ∀ self : Performer, notify self r change w =
      some (.ok 0, {w with registries := registries, log := log}) := by
  cases listed : (w.registry r).slots.get? c.name with
  | none => exact ⟨w.registries, w.log, fun self => notify_unheard known listed⟩
  | some xs =>
    have here : (w.registry r).observers c.name = xs := by
      rw [Registry.observers, listed]
      rfl
    rw [here] at nobody
    have told (self : Performer) : deliver self change (w.liveObservers xs)
        (w.notifying r change c) = some (.ok (), w.notifying r change c) := by
      rw [nobody]
      rfl
    refine ⟨(w.notifying r change c).registries, (w.notifying r change c).log, fun self => ?_⟩
    rw [notify_eq known listed (told self), nobody, w.notifying_of_listed change listed]
    rfl

/-- Nothing is written back of an attribute that is not bound. -/
theorem write_unbound {e : EngineRef} {name : String} (o change : ObjectId)
    (unbound : (w.engine e).bindings.get? name = none) :
    ∃ log, ∀ self : Performer, Engine.write self e o name change w =
      some (.ok (), {w with log := log}) := by
  by_cases guarded : (w.engine e).guards.contains name = true
  · refine ⟨(w.addEntry (.writeSuppressed o name)).log, fun self => ?_⟩
    rw [Engine.write, Action.read_bind, if_pos guarded]
    rfl
  · refine ⟨w.log, fun self => ?_⟩
    rw [Engine.write, Action.read_bind, if_neg guarded, unbound]
    rfl

/-- A change that no observer is there to hear of and no binding writes back leaves its record
behind, and no other trace but in registries and in the log. -/
theorem dispatch_unheard {c : Change}
    (unheard : ∀ r, w.registryOf? c.owner = some r →
      (w.announce c).liveObservers ((w.registry r).observers c.name) = [])
    (unbound : ∀ e, w.engineOf? c.owner = some e → (w.engine e).bindings.get? c.name = none) :
    Leads w (fun self => dispatch self c.owner c.kind c.name c.old c.new) fun r w' => r = .ok () ∧
      ∃ registries log,
        w' = {(w.addObject (.change c)).1 with registries := registries, log := log} := by
  have registry : (w.announce c).registryOf? c.owner = w.registryOf? c.owner := by
    rw [World.registryOf?, World.registryOf?, declared?_announce]
  have engine (registries : Array Registry) (log : Array LogEntry) :
      ({w.announce c with registries := registries, log := log} : World).engineOf? c.owner =
        w.engineOf? c.owner := by
    show ((w.announce c).declared? c.owner).bind Declared.engine = _
    rw [declared?_announce]
    rfl
  -- nothing is written back, whatever there is of registries and in the log
  have written (registries : Array Registry) (log : Array LogEntry) {e : EngineRef}
      (found : w.engineOf? c.owner = some e) :
      Leads {w.announce c with registries := registries, log := log}
        (fun self => Action.holding [.engine e]
          (Engine.write self e c.owner c.name (w.addObject (.change c)).2)) fun r w' =>
        r = .ok () ∧ ∃ registries log,
          w' = {w.announce c with registries := registries, log := log} := by
    obtain ⟨log', written⟩ := write_unbound
      (w := World.hold {w.announce c with registries := registries, log := log} [.engine e])
      c.owner (w.addObject (.change c)).2 (unbound e found)
    exact Leads.holding (Leads.of_eq written ⟨rfl, registries, log', rfl⟩)
  refine Leads.add (Leads.holding (Leads.mono (Q := fun r w' => r = .ok () ∧
    ∃ registries log, w' = {w.announce c with registries := registries, log := log}) ?_ ?_))
  · refine Leads.read (w := w.announce c) ?_
    rw [registry]
    cases noted : w.registryOf? c.owner with
    | none =>
      refine Leads.read (w := w.announce c) ?_
      rw [show (w.announce c).engineOf? c.owner = _ from engine _ _]
      cases found : w.engineOf? c.owner with
      | none => exact Leads.pure ⟨rfl, _, _, rfl⟩
      | some e => exact written _ _ found
    | some r =>
      obtain ⟨registries, log, nobody⟩ := notify_nobody (w.change?_announce c) (unheard r noted)
      refine Leads.after nobody (Leads.read ?_)
      rw [engine]
      cases found : w.engineOf? c.owner with
      | none => exact Leads.pure ⟨rfl, registries, log, rfl⟩
      | some e => exact written registries log found
  · rintro r w' ⟨ok, registries, log, rfl⟩
    exact ⟨ok, registries, log, rfl⟩

/-! ### Assigning to an attribute -/

/-- A value shows. -/
theorem glance_of_valueOf? (here : w.valueOf? a = some v) : w.glance a = some v := by
  obtain ⟨x, known, stored⟩ := Option.bind_eq_some_iff.1 here
  have has : x.hasAttribute a.name = true := by
    rw [Declared.hasAttribute, Dict.contains, stored]
    rfl
  simp only [glance, (w.declared?_eq_some).1 known, has, valuation, here]
  rfl

/-- A value has been stored, and there is the record of a change. -/
theorem Surveys.stored {c : Change} (registries : Array Registry) (log : Array LogEntry)
    (surveys : w.Surveys u) (is : u.Attribute a) (near : ∀ h ∈ v.handles, w.isLive h = true)
    (change : ∀ h ∈ (Entity.change c).handles, w.isLive h = true) :
    w.Puts (.attr a) v
      {((u.store a v).addObject (.change c)).1 with registries := registries, log := log} where
  confines.roots := surveys.confines.roots
  confines.edges {g h} held := by
    have held : ((u.store a v).addObject (.change c)).1.Holds g h := held
    rcases holds_addObject.1 held with ⟨_, mem⟩ | before
    · exact .inr (change _ mem)
    · rcases holds_store before with before | mem
      · exact surveys.confines.edges before
      · exact .inr (near _ mem)
  roots := surveys.roots
  object {o} old := by
    have inside : o.index < u.objects.size := Nat.lt_of_lt_of_le old surveys.more
    show SameObject _ (((u.store a v).addObject (.change c)).1.entity? o)
    have size : (u.store a v).objects.size = u.objects.size := Array.size_modify
    rw [entity?_addObject, size, if_neg (Nat.ne_of_lt inside), ← surveys.entity old]
    by_cases mine : a.object = o
    · subst mine
      obtain ⟨x, known, _⟩ := is
      obtain ⟨x', known', fixed⟩ := (extends_store ⟨x, known, ‹_›⟩ v).declared known
      rw [(u.declared?_eq_some).1 known, ((u.store a v).declared?_eq_some).1 known']
      exact .declared fixed
    · rw [store, entity?_modifyDeclared, if_neg mine]
      exact .same _
  new {o} young := by
    show ((u.store a v).addObject (.change c)).1.declared? o = none
    rw [declared?_addObject]
    split
    · rfl
    · rw [store, declared?_modifyDeclared, surveys.new young]
      split <;> rfl
  others ℓ other := by
    rw [← surveys.content ℓ]
    cases ℓ with
    | attr d =>
      show ((u.store a v).announce c).valueOf? d = u.valueOf? d
      rw [valueOf?_announce, valueOf?_store is, if_neg fun same => other (by rw [same])]
    | _ => rfl
  here := .inl (by
    show ((u.store a v).announce c).valueOf? a = some v
    rw [valueOf?_announce, valueOf?_store is, if_pos rfl])
  objects := by
    show _ ≤ ((u.store a v).objects.push _).size
    have size : (u.store a v).objects.size = u.objects.size := Array.size_modify
    rw [Array.size_push, size]
    exact Nat.le_succ_of_le surveys.more
  maps := congrArg Array.size surveys.maps
  layers := congrArg Array.size surveys.layers
  natives := surveys.natives
  engines := surveys.engines
  desk := surveys.desk

/-- The attribute is not bound, and nobody who is there observes it. -/
structure Free (w : World) (a : Dependency) : Prop where
  unbound : ∀ e, w.engineOf? a.object = some e → (w.engine e).bindings.get? a.name = none
  unobserved : w.liveObservers (w.observersOf a) = []

/-- A value can be put in the place. Attributes take none if they are constants. -/
def Takes (w : World) : Location → Prop
  | .attr a => w.Assignable a
  | _ => True

/-- With enough nested steps a value is put in the place, if there is one that takes values.
Otherwise there is a failure, and nothing has happened but looking. -/
abbrev Tries (w u : World) (a : Performer → Action Unit) (place : Option Location) (v : Value)
    (failure : BindError → Prop) : Prop :=
  Leads u a fun r u' => u'.held = u.held ∧
    ((∃ ℓ, place = some ℓ ∧ w.Takes ℓ ∧ r = .ok () ∧ w.Puts ℓ v u') ∨
      (∃ e, r = .error e ∧ failure e ∧ ∀ ℓ, place = some ℓ → ¬ w.Takes ℓ) ∧ w.Surveys u')

/-- Where there is no place there is a failure. -/
theorem Surveys.fails {failure : BindError → Prop} (surveys : w.Surveys u) {e : BindError}
    (why : failure e) : w.Tries u (fun _ => Action.throw e) none v failure :=
  Leads.throw ⟨rfl, .inr ⟨⟨e, rfl, why, fun _ there => nomatch there⟩, surveys⟩⟩

theorem Surveys.tries {a : Performer → Action Unit} {place : Option Location}
    {failure : BindError → Prop} {hs : List Handle} (surveys : w.Surveys u)
    (near : ∀ h ∈ hs, w.isLive h = true ∨ w.Young h)
    (tries : w.Surveys (u.hold hs) → w.Tries (u.hold hs) a place v failure) :
    w.Tries u (fun self => Action.holding hs (a self)) place v failure := by
  refine Leads.holding ((tries (surveys.hold near)).mono ?_)
  rintro r u' ⟨-, ⟨ℓ, there, takes, ok, puts⟩ | ⟨failed, later⟩⟩
  · exact ⟨rfl, .inl ⟨ℓ, there, takes, ok, puts.release surveys⟩⟩
  · exact ⟨rfl, .inr ⟨failed, surveys.release later⟩⟩

/-- The value is stored and the change made known, be it the first value or not. -/
theorem store_tries {failure : BindError → Prop} (surveys : w.Surveys u) (takes : w.Assignable a)
    (live : w.isLive (.object a.object) = true) (near : ∀ h ∈ v.handles, w.isLive h = true)
    (free : w.Free a) (kind : ChangeKind) {old : Value}
    (before : ∀ h ∈ old.handles, w.isLive h = true) :
    w.Tries u (fun self => do
      storeValue a.object a.name v
      dispatch self a.object kind a.name old v) (some (.attr a)) v failure := by
  have is : u.Attribute a := by
    obtain ⟨x, known, has⟩ := takes.attribute
    exact ⟨x, (surveys.declared? _).trans known, has⟩
  let c : Change := ⟨kind, a.object, a.name, old, v⟩
  have change : ∀ h ∈ (Entity.change c).handles, w.isLive h = true := by
    intro h mem
    rcases List.mem_append.1 mem with mem | new
    · rcases List.mem_cons.1 mem with rfl | old
      · exact live
      · exact before h old
    · exact near h new
  have size : (u.store a v).objects.size = u.objects.size := Array.size_modify
  have confines : w.Confines ((u.store a v).announce c) := by
    refine Confines.hold ⟨surveys.confines.roots,
      (surveys.stored u.registries u.log is near change).confines.edges⟩ ?_
    intro h mem
    rcases List.mem_cons.1 mem with rfl | mem
    · exact .inl live
    · cases List.mem_singleton.1 mem
      exact .inr (Nat.le_trans surveys.more (Nat.le_of_eq size.symm))
  refine Leads.update ((dispatch_unheard (w := u.store a v) (c := c) ?_ ?_).mono ?_)
  · intro r found
    have registry : w.registryOf? a.object = some r := by
      rw [← found, (still_store u a v).registryOf?, registryOf?, registryOf?, surveys.declared?]
    refine confines.liveObservers ?_
    have nobody := free.unobserved
    rw [observersOf, registry] at nobody
    show w.liveObservers ((u.registry r).observers a.name) = []
    rw [World.registry, surveys.registries]
    exact nobody
  · intro e found
    have engine : w.engineOf? a.object = some e := by
      rw [← found, (extends_store is v).engineOf?, surveys.engineOf?]
    show (u.engine e).bindings.get? a.name = none
    rw [World.engine, surveys.engines]
    exact free.unbound e engine
  · rintro r u' ⟨rfl, registries, log, rfl⟩
    exact ⟨rfl, .inl ⟨_, rfl, takes, rfl, surveys.stored registries log is near change⟩⟩

/-- Assigning to an attribute of a declared object stores the value, unless the attribute is a
constant or there is no such attribute. -/
theorem assignDeclared_tries {d : Declared} (surveys : w.Surveys u)
    (known : w.declared? a.object = some d) (live : w.isLive (.object a.object) = true)
    (near : ∀ h ∈ v.handles, w.isLive h = true) (free : w.Free a) :
    w.Tries u (fun self => assignDeclared self a.object d a.name v) (some (.attr a)) v
      fun e => ∃ c, e = .access c := by
  -- the object that is known is the one that says whether the attribute takes values
  have refuses {e : BindError} (why : ∃ c, e = .access c)
      (not : ¬(d.isConstant a.name = false ∧ d.hasAttribute a.name = true)) :
      w.Tries u (fun _ => Action.throw e) (some (.attr a)) v fun e => ∃ c, e = .access c := by
    refine Leads.throw ⟨rfl, .inr ⟨⟨e, rfl, why, ?_⟩, surveys⟩⟩
    rintro ℓ ⟨⟩ ⟨d', known', takes⟩
    cases known.symm.trans known'
    exact not takes
  unfold assignDeclared
  cases constant : d.isConstant a.name with
  | true => exact refuses ⟨_, rfl⟩ fun takes => Bool.false_ne_true (takes.1.symm.trans constant)
  | false =>
    cases has : d.hasAttribute a.name with
    | false => exact refuses ⟨_, rfl⟩ fun takes => Bool.false_ne_true (has.symm.trans takes.2)
    | true =>
      have takes : w.Assignable a := ⟨d, known, constant, has⟩
      have value : w.valueOf? a = d.values.get? a.name := by
        rw [valueOf?, stored?, known]
        rfl
      simp only [Bool.false_eq_true, if_false, Bool.not_true]
      cases stored : d.values.get? a.name with
      | none =>
        have nothing : ∀ h ∈ Value.null.handles, w.isLive h = true := List.forall_mem_nil _
        exact store_tries surveys takes live near free .create nothing
      | some old =>
        refine Leads.read ?_
        split
        · next equal =>
          have left : w.Puts (.attr a) v u := surveys.left (value.trans stored) equal
          exact Leads.pure ⟨rfl, .inl ⟨_, rfl, takes, rfl, left⟩⟩
        · refine store_tries surveys takes live near free .update fun h mem => ?_
          exact isLive_of_glance live (glance_of_valueOf? (value.trans stored)) mem

/-- Assigning to an attribute of an object comes to assigning to it at the object that supplies it.
-/
theorem assign_tries {o : ObjectId} {name : String} (descends : w.Descends) (intact : w.Intact)
    (surveys : w.Surveys u) (live : w.isLive (.object o) = true)
    (near : ∀ h ∈ v.handles, w.isLive h = true)
    (free : ∀ p, w.supplier? o name = some p → w.Free ⟨p, name⟩) :
    w.Tries u (fun self => assign self o name v)
      ((w.supplier? o name).map fun p => .attr ⟨p, name⟩) v fun e => ∃ c, e = .access c := by
  induction size : o.index using Nat.strong_induction_on generalizing o u with
  | _ n ih =>
    have old : o.index < w.objects.size := intact.includes live
    -- there is no declared object to take the value
    have refuses {e : BindError} {d : Option Entity} (entity : w.entity? o = d)
        (other : ∀ x, d ≠ some (.declared x)) (plain : w.Plain o) (why : ∃ c, e = .access c) :
        w.Tries u (fun _ => Action.throw e) ((w.supplier? o name).map fun p => .attr ⟨p, name⟩) v
          fun e => ∃ c, e = .access c := by
      refine Leads.throw ⟨rfl, .inr ⟨⟨e, rfl, why, ?_⟩, surveys⟩⟩
      rw [supplier?_of_plain plain]
      rintro ℓ ⟨⟩ ⟨x, known, _⟩
      exact other x (entity.symm.trans (w.declared?_eq_some.1 known))
    refine Leads.read ?_
    rw [surveys.entity old]
    rcases entity : w.entity? o with _ | d | c | ⟨p, t⟩
    · refine refuses entity (fun _ same => nomatch same) (fun p t view => ?_) ⟨_, rfl⟩
      rw [entity] at view
      cases view
    · have plain : w.Plain o := fun p t view => by
        rw [entity] at view
        cases view
      rw [supplier?_of_plain plain]
      refine surveys.tries (fun h mem => .inl (List.mem_singleton.1 mem ▸ live)) fun surveys₁ => ?_
      exact assignDeclared_tries (a := ⟨o, name⟩) surveys₁ ((w.declared?_eq_some).2 entity)
        live near (free o (supplier?_of_plain plain))
    · have plain : w.Plain o := fun p t view => by
        rw [entity] at view
        cases view
      dsimp only
      split
      · exact refuses entity (fun _ same => nomatch same) plain ⟨_, rfl⟩
      · exact refuses entity (fun _ same => nomatch same) plain ⟨_, rfl⟩
    · have owner := isLive_of_view live entity
      have older := descends.owner entity
      rw [descends.supplier?_view entity] at free ⊢
      refine Leads.read ?_
      rw [(surveys.resembles descends).nearest? descends (by omega) owner]
      cases near' : w.nearest? p name with
      | none => exact Leads.read (surveys.fails ⟨_, rfl⟩)
      | some q =>
        have down := descends.nearest?_le near'
        rw [near'] at free
        have held : ∀ h ∈ [.object o], w.isLive h = true ∨ w.Young h :=
          fun h mem => .inl (List.mem_singleton.1 mem ▸ live)
        refine surveys.tries held fun surveys₁ => ?_
        exact Leads.request
          (ih q.index (by omega) surveys₁ (isLive_of_nearest? owner near') free rfl)

/-! ### Items, entries and variables -/

theorem items_modifyList (w : World) (r r' : ListRef) (f : List Value → List Value) :
    (w.modifyList r f).items r' =
      if r = r' ∧ r.index < w.lists.size then f (w.items r') else w.items r' := by
  simp only [modifyList, items, Array.getElem?_modify]
  by_cases same : r = r'
  · subst same
    by_cases inside : r.index < w.lists.size <;> simp [inside]
  · have apart : r.index ≠ r'.index := fun h => same (congrArg ListRef.mk h)
    simp [same, apart]

theorem entries_modifyMap (w : World) (r r' : MapRef) (f : Dict String Value → Dict String Value) :
    (w.modifyMap r f).entries r' =
      if r = r' ∧ r.index < w.maps.size then f (w.entries r') else w.entries r' := by
  simp only [modifyMap, entries, Array.getElem?_modify]
  by_cases same : r = r'
  · subst same
    by_cases inside : r.index < w.maps.size <;> simp [inside]
  · have apart : r.index ≠ r'.index := fun h => same (congrArg MapRef.mk h)
    simp [same, apart]

theorem layer_modifyLayer (w : World) (l l' : LayerRef)
    (f : Dict String Value → Dict String Value) : (w.modifyLayer l f).layer l' =
      if l = l' ∧ l.index < w.layers.size then f (w.layer l') else w.layer l' := by
  simp only [modifyLayer, layer, Array.getElem?_modify]
  by_cases same : l = l'
  · subst same
    by_cases inside : l.index < w.layers.size <;> simp [inside]
  · have apart : l.index ≠ l'.index := fun h => same (congrArg LayerRef.mk h)
    simp [same, apart]

/-- One container has got a value. -/
theorem Surveys.replaced {u' : World} (surveys : w.Surveys u)
    (near : ∀ h ∈ v.handles, w.isLive h = true)
    (edges : ∀ {g h}, u'.Holds g h → u.Holds g h ∨ h ∈ v.handles) (objects : u'.objects = u.objects)
    (held : u'.held = u.held) (natives : u'.natives = u.natives) (engines : u'.engines = u.engines)
    (desk : u'.desk = u.desk) (maps : u'.maps.size = u.maps.size)
    (layers : u'.layers.size = u.layers.size) (others : ∀ ℓ', ℓ' ≠ ℓ → u'.content ℓ' = u.content ℓ')
    (here : u'.content ℓ = some v) : w.Puts ℓ v u' where
  confines.roots h root := by
    rw [World.roots, held, desk] at root
    exact surveys.confines.roots h root
  confines.edges held := by
    rcases edges held with before | mem
    · exact surveys.confines.edges before
    · exact .inr (near _ mem)
  roots h root := by
    rw [World.roots, held, desk]
    exact surveys.roots h root
  object {o} old := by
    have same : u'.entity? o = w.entity? o := by
      rw [← surveys.entity old, entity?, entity?, objects]
    rw [same]
    exact .same _
  new {o} young := by
    have same : u'.declared? o = u.declared? o := by
      simp only [World.declared?, entity?, objects]
    exact same.trans (surveys.new young)
  others ℓ' other := (others ℓ' other).trans (surveys.content ℓ')
  here := .inl here
  objects := by
    rw [objects]
    exact surveys.more
  maps := by rw [maps, surveys.maps]
  layers := by rw [layers, surveys.layers]
  natives := natives.trans surveys.natives
  engines := engines.trans surveys.engines
  desk := desk.trans surveys.desk

/-- A value has been put in a place, and nothing else has happened. -/
structure Updates (w : World) (ℓ : Location) (v : Value) (u : World) : Prop where
  here : u.content ℓ = some v
  others : ∀ ℓ', ℓ' ≠ ℓ → u.content ℓ' = w.content ℓ'
  lengths : ∀ r, (u.items r).length = (w.items r).length
  lists : u.lists.size = w.lists.size
  maps : u.maps.size = w.maps.size
  rest : u = {w with lists := u.lists, maps := u.maps}

theorem updates_item {r : ListRef} {i : Nat} (inside : i < (w.items r).length) :
    w.Updates (.item r i) v (w.modifyList r (·.set i v)) where
  here := by
    have there : r.index < w.lists.size := by
      by_contra outside
      rw [items, Array.getElem?_eq_none (Nat.le_of_not_lt outside)] at inside
      exact Nat.not_lt_zero _ inside
    rw [content, items_modifyList, if_pos ⟨rfl, there⟩, List.getElem?_set_self inside]
  others ℓ other := by
    cases ℓ with
    | item r' i' =>
      rw [content, content, items_modifyList]
      split
      · next same =>
        refine List.getElem?_set_ne fun places => other ?_
        rw [← same.1, places]
      · rfl
    | _ => rfl
  lengths r' := by
    rw [items_modifyList]
    split
    · exact List.length_set
    · rfl
  lists := Array.size_modify
  maps := rfl
  rest := rfl

theorem updates_entry {r : MapRef} {key : String} (there : r.index < w.maps.size) :
    w.Updates (.entry r key) v (w.modifyMap r (·.insert key v)) where
  here := by rw [content, entries_modifyMap, if_pos ⟨rfl, there⟩, Dict.get?_insert_self]
  others ℓ other := by
    cases ℓ with
    | entry r' key' =>
      rw [content, content, entries_modifyMap]
      split
      · next same =>
        rw [Dict.get?_insert, if_neg fun keys => other ?_]
        rw [← same.1, keys]
      · rfl
    | _ => rfl
  lengths _ := rfl
  lists := rfl
  maps := Array.size_modify
  rest := rfl

theorem Surveys.put_item {r : ListRef} {i : Nat} (surveys : w.Surveys u)
    (near : ∀ h ∈ v.handles, w.isLive h = true) (inside : i < (u.items r).length) :
    w.Puts (.item r i) v (u.modifyList r (·.set i v)) := by
  refine surveys.replaced near (fun {g h} held => ?_) rfl rfl rfl rfl rfl rfl rfl
    (updates_item inside).others (updates_item inside).here
  obtain ⟨holder, mem⟩ := held
  have here : g ∈ u.holders := by
    rw [mem_holders] at holder ⊢
    cases g with
    | list r' => exact Nat.lt_of_lt_of_eq holder Array.size_modify
    | _ => exact holder
  cases g with
  | list r' =>
    simp only [holds, items_modifyList] at mem
    split at mem
    · obtain ⟨x, item, inside⟩ := List.mem_flatMap.1 mem
      rcases List.mem_or_eq_of_mem_set item with old | rfl
      · exact .inl ⟨here, List.mem_flatMap.2 ⟨x, old, inside⟩⟩
      · exact .inr inside
    · exact .inl ⟨here, mem⟩
  | _ => exact .inl ⟨here, mem⟩

theorem Surveys.put_entry {r : MapRef} {key : String} (surveys : w.Surveys u)
    (near : ∀ h ∈ v.handles, w.isLive h = true) (there : r.index < u.maps.size) :
    w.Puts (.entry r key) v (u.modifyMap r (·.insert key v)) := by
  refine surveys.replaced near (fun {g h} held => ?_) rfl rfl rfl rfl rfl Array.size_modify rfl
    (updates_entry there).others (updates_entry there).here
  obtain ⟨holder, mem⟩ := held
  have here : g ∈ u.holders := by
    rw [mem_holders] at holder ⊢
    cases g with
    | map r' => exact Nat.lt_of_lt_of_eq holder Array.size_modify
    | _ => exact holder
  cases g with
  | map r' =>
    simp only [holds, entries_modifyMap] at mem
    split at mem
    · exact (mem_handles_insert mem).imp_left fun old => ⟨here, old⟩
    · exact .inl ⟨here, mem⟩
  | _ => exact .inl ⟨here, mem⟩

theorem Surveys.put_slot {l : LayerRef} {name : String} (surveys : w.Surveys u)
    (near : ∀ h ∈ v.handles, w.isLive h = true) (there : l.index < u.layers.size) :
    w.Puts (.slot l name) v (u.modifyLayer l (·.insert name v)) := by
  refine surveys.replaced near (fun {g h} held => ?_) rfl rfl rfl rfl rfl rfl Array.size_modify
    (fun ℓ other => ?_) ?_
  · obtain ⟨holder, mem⟩ := held
    have here : g ∈ u.holders := by
      rw [mem_holders] at holder ⊢
      cases g with
      | layer l' => exact Nat.lt_of_lt_of_eq holder Array.size_modify
      | _ => exact holder
    cases g with
    | layer l' =>
      simp only [holds, layer_modifyLayer] at mem
      split at mem
      · exact (mem_handles_insert mem).imp_left fun old => ⟨here, old⟩
      · exact .inl ⟨here, mem⟩
    | _ => exact .inl ⟨here, mem⟩
  · cases ℓ with
    | slot l' name' =>
      show ((u.modifyLayer l (·.insert name v)).layer l').get? name' = (u.layer l').get? name'
      rw [layer_modifyLayer]
      split
      · next same =>
        rw [Dict.get?_insert, if_neg fun names => other ?_]
        rw [← same.1, names]
      · rfl
    | _ => rfl
  · show ((u.modifyLayer l (·.insert name v)).layer l).get? name = some v
    rw [layer_modifyLayer, if_pos ⟨rfl, there⟩, Dict.get?_insert_self]

end World

end LiveBinding
