import LiveBinding.Proofs.Chronicle
import LiveBinding.Proofs.Containment
import LiveBinding.Proofs.LedgerFrame

/-! Attending to an attribute.

A watcher whose subscription is held attends to its attribute whatever happens, and a function that
is bound by `::` stays bound. What concerns neither the attribute nor its observers adds nothing
to the chronicle. -/
namespace LiveBinding

namespace World
variable {w w' : World} {a : Dependency} {x : WatcherRef} {f : Option FunctionRef}

theorem valueOf?_of_objects (same : w'.objects = w.objects) (a : Dependency) :
    w'.valueOf? a = w.valueOf? a := by simp only [valueOf?, stored?, declared?, entity?, same]

theorem objects_guard (w : World) (e : EngineRef) (name : String) :
    (w.guard e name).objects = w.objects := by
  unfold guard
  split <;> rfl

theorem objects_unguard (w₀ w : World) (e : EngineRef) (name : String) :
    (w₀.unguard w e name).objects = w.objects := by
  unfold unguard
  split <;> rfl

theorem told_guard (w : World) (e : EngineRef) (name : String) :
    (w.guard e name).told = w.told := by
  unfold guard
  split <;> rfl

theorem told_unguard (w₀ w : World) (e : EngineRef) (name : String) :
    (w₀.unguard w e name).told = w.told := by
  unfold unguard
  split <;> rfl

/-- Attributes stay attributes. -/
theorem Standing.attribute (standing : w.Standing w') (is : w.Attribute a) : w'.Attribute a := by
  obtain ⟨d, known, has⟩ := is
  obtain ⟨d', there, _, kept⟩ := standing.declared known
  exact ⟨d', there, kept _ has⟩

/-! ### Who attends -/

/-- How often a watcher is on a list of observers. -/
def listings (w : World) (r : RegistryRef) (name : String) (x : WatcherRef) : Nat :=
  ((w.registry r).observers name).count (.watcher x)

/-- A watcher is subscribed to an attribute and its subscription is held. The function that is said
to be bound to the attribute by `::` is, and the attribute is not being updated. -/
structure Attended (w : World) (a : Dependency) (x : WatcherRef) (f : Option FunctionRef) :
    Prop where
  known : w.Attribute a
  subscribed : ∃ r, w.registryOf? a.object = some r ∧ w.listings r a.name x = 1
  made : x.index < w.watchers.size
  held : .watcher x ∈ w.held
  bound : ∀ g, f = some g → ∃ e key, w.engineOf? a.object = some e ∧
    (w.engine e).bindings.get? a.name = some (Operator.notify.bind g key) ∧
    a.name ∉ (w.engine e).guards

theorem Attended.hold (attended : w.Attended a x f) (hs : List Handle) :
    (w.hold hs).Attended a x f :=
  { attended with held := List.mem_append_right _ attended.held }

theorem Attended.modifyEngine (attended : w.Attended a x f) (e : EngineRef) (g : Engine → Engine)
    (bindings : ∀ y, (g y).bindings = y.bindings)
    (free : ∀ h, f = some h → w.engineOf? a.object = some e → a.name ∉ (w.engine e).guards →
      a.name ∉ (g (w.engine e)).guards) : (w.modifyEngine e g).Attended a x f :=
  { attended with
    bound := fun h same => by
      obtain ⟨e', key, engine, bound, idle⟩ := attended.bound h same
      refine ⟨e', key, engine, ?_⟩
      rw [engine_modifyEngine]
      split
      · next here =>
        rw [← here.1] at engine bound idle ⊢
        exact ⟨by rw [bindings, bound], free h same engine idle⟩
      · exact ⟨bound, idle⟩ }

/-- An update of something else does not matter. -/
theorem Attended.guard (attended : w.Attended a x f) {e : EngineRef} {name : String}
    (other : ∀ h, f = some h → w.engineOf? a.object = some e → name ≠ a.name) :
    (w.guard e name).Attended a x f := by
  unfold World.guard
  split
  · exact attended
  · refine attended.modifyEngine e _ (fun _ => rfl) fun h same engine free => ?_
    exact List.not_mem_cons_of_ne_of_not_mem (other h same engine).symm free

theorem Attended.unguard (attended : w.Attended a x f) (w₀ : World) (e : EngineRef)
    (name : String) : (w₀.unguard w e name).Attended a x f := by
  unfold World.unguard
  split
  · exact attended
  · refine attended.modifyEngine e _ (fun _ => rfl) fun _ _ _ free up => ?_
    exact free (List.mem_of_mem_erase up)

/-- Who attends goes on doing so while the observers and the binding stay. -/
theorem Attended.upkeep (attended : w.Attended a x f) (sustains : w.Sustains w')
    (held : .watcher x ∈ w'.held)
    (listed : ∀ r, w'.listings r a.name x = w.listings r a.name x)
    (bindings : ∀ {e}, w.engineOf? a.object = some e →
      (w'.engine e).bindings.get? a.name = (w.engine e).bindings.get? a.name) :
    w'.Attended a x f where
  known := sustains.attribute attended.known
  subscribed := by
    obtain ⟨r, observable, once⟩ := attended.subscribed
    exact ⟨r, sustains.registryOf? observable, (listed r).trans once⟩
  made := by
    have here := Array.getElem?_eq_getElem attended.made
    exact (Array.getElem?_eq_some_iff.1 (sustains.watchers here)).1
  held := held
  bound g same := by
    obtain ⟨e, key, engine, bound, free⟩ := attended.bound g same
    exact ⟨e, key, sustains.engineOf? engine, (bindings engine).trans bound,
      by rwa [sustains.guards]⟩

/-! ### What adds nothing -/

/-- Nothing has become known of an attribute, and a watcher that is held is listed as before. -/
structure Uneventful (a : Dependency) (x : WatcherRef) (w w' : World) : Prop where
  held : w'.held = w.held
  changes : w'.changes a = w.changes a
  heard : w'.heard a x = w.heard a x
  stored : w'.valueOf? a = w.valueOf? a
  listed : .watcher x ∈ w.held → ∀ r, w'.listings r a.name x = w.listings r a.name x

namespace Uneventful

theorem of_tables (objects : w'.objects = w.objects) (registries : w'.registries = w.registries)
    (told : w'.told = w.told) (held : w'.held = w.held) : Uneventful a x w w' where
  held := held
  changes := changes_of_objects objects a
  heard := heard_of_told told a x
  stored := valueOf?_of_objects objects a
  listed _ r := by simp only [listings, registry, registries]

theorem steady : Steady (Uneventful a x) where
  trans first next :=
    { held := next.held.trans first.held
      changes := next.changes.trans first.changes
      heard := next.heard.trans first.heard
      stored := next.stored.trans first.stored
      listed := fun held r =>
        (next.listed (by rwa [first.held]) r).trans (first.listed held r) }
  quiet quiet := of_tables quiet.objects quiet.registries quiet.told quiet.held

/-- Objects that are added are other objects, and changes that are added are about others. -/
theorem addObject {y : Entity} (other : a.object.index = w.objects.size → y.declared? = none)
    (silent : ∀ c, y.change? = some c → ¬ c.About a) : Uneventful a x w (w.addObject y).1 where
  held := rfl
  changes := by
    have none : y.change?.filter (·.About a) = none := by
      rw [Option.filter_eq_none_iff]
      exact fun c same about => silent c same (by simpa using about)
    rw [changes_addObject, none]
    exact List.append_nil _
  heard := rfl
  stored := by
    rw [valueOf?, valueOf?, stored?, stored?, declared?_addObject]
    split
    · next last =>
      rw [other last, w.declared?_of_size_le (Nat.le_of_eq last.symm)]
    · rfl
  listed _ _ := rfl

theorem modifyDeclared (o : ObjectId) (g : Declared → Declared)
    (values : o = a.object → ∀ d, (g d).values.get? a.name = d.values.get? a.name) :
    Uneventful a x w (w.modifyDeclared o g) where
  held := rfl
  changes := changes_modifyDeclared w o g a
  heard := rfl
  stored := by
    rw [valueOf?, valueOf?, stored?, stored?, declared?_modifyDeclared]
    split
    · next same =>
      cases w.declared? a.object with
      | none => rfl
      | some d => exact values same d
    · rfl
  listed _ _ := rfl

theorem modifyRegistry (r : RegistryRef) (g : Registry → Registry)
    (counts : .watcher x ∈ w.held → ((g (w.registry r)).observers a.name).count (.watcher x) =
      ((w.registry r).observers a.name).count (.watcher x)) :
    Uneventful a x w (w.modifyRegistry r g) where
  held := rfl
  changes := rfl
  heard := rfl
  stored := rfl
  listed held s := by
    rw [listings, registry_modifyRegistry]
    split
    · next here =>
      rw [listings, ← here.1]
      exact counts held
    · rfl

/-- Nor does it that anybody is told of the change of another attribute. -/
theorem tell {i : ObjectId} {c : Change} (y : Observer) (known : w.change? i = some c)
    (other : ¬ c.About a) : Uneventful a x w (w.tell y i) where
  held := rfl
  changes := rfl
  heard := by
    have silent : (some c).filter (·.About a) = none := by simp [Option.filter, other]
    rw [heard_tell, known, silent, ite_self]
    exact List.append_nil _
  stored := rfl
  listed _ _ := rfl

/-- Adding another observer does not matter. -/
theorem observe {y : Observer} (other : y ≠ .watcher x) (r : RegistryRef) (name : String) :
    Uneventful a x w (w.modifyRegistry r (·.add name y)) := by
  refine modifyRegistry r _ fun _ => ?_
  unfold Registry.add Registry.observers
  rw [Dict.get?_insert]
  split
  · next same =>
    subst same
    simp [other]
  · rfl

/-- A watcher that is held is not forgotten. -/
theorem prune {r : RegistryRef} {name : String} {xs : List Observer}
    (found : (w.registry r).slots.get? name = some xs) :
    Uneventful a x w (w.modifyRegistry r (·.prune name (w.liveObservers xs).contains)) := by
  refine modifyRegistry r _ fun held => ?_
  have live : .watcher x ∈ w.roots := List.mem_append_right _ held
  unfold Registry.prune Registry.observers
  rw [found]
  dsimp only
  rw [Dict.get?_insert]
  split
  · next same =>
    subst same
    rw [found, Option.getD_some, Option.getD_some]
    by_cases mem : .watcher x ∈ xs
    · refine List.count_filter ?_
      rw [List.contains_iff_mem]
      exact watcher_mem_liveObservers.2 ⟨mem, live⟩
    · rw [List.count_eq_zero_of_not_mem mem, List.count_eq_zero_of_not_mem]
      exact fun kept => mem (List.mem_of_mem_filter kept)
  · rfl

theorem addRegistry : Uneventful a x w (w.addRegistry .empty).1 where
  held := rfl
  changes := rfl
  heard := rfl
  stored := rfl
  listed _ r := by
    rw [listings, registry_addRegistry, listings]
    split
    · next last => rw [w.registry_of_size_le (Nat.le_of_eq last.symm)]
    · rfl

/-- An object that is built is another one. -/
theorem newObject (b : Blueprint) (known : w.Attribute a) {r : Except BindError ObjectId}
    (run : LiveBinding.newObject b w = some (r, w')) :
    Uneventful a x w w' ∧ w'.engines = w.engines := by
  let R (w w' : World) : Prop := w.has a.object = true →
    w'.has a.object = true ∧ Uneventful a x w w' ∧ w'.engines = w.engines
  have F : Steady R := by
    constructor
    · intro _ _ _ first next there
      obtain ⟨there', quiet, engines⟩ := first there
      obtain ⟨there'', quiet', engines'⟩ := next there'
      exact ⟨there'', steady.trans quiet quiet', engines'.trans engines⟩
    · intro w w' quiet there
      refine ⟨?_, steady.quiet quiet, quiet.engines⟩
      rwa [has, quiet.objects]
  have there : w.has a.object = true := by
    obtain ⟨d, known, _⟩ := known
    rw [← entity?_isSome, w.declared?_eq_some.1 known]
    rfl
  refine (F.newObject b (fun w there => ⟨there, addRegistry, rfl⟩) (fun w d there => ?_) w r w' run
    there).2
  refine ⟨has_addObject _ there, addObject (fun last => ?_) (fun c same => by cases same), rfl⟩
  rw [has_iff, last] at there
  exact absurd there (Nat.lt_irrefl _)

theorem relink (e : EngineRef) (owner : ObjectId) (name : String) (t : TracerRef) :
    (do Engine.conclude e owner name t; Engine.relink e owner name t).Keeps (Uneventful a x) :=
  steady.relink e owner name t (fun _ _ => of_tables rfl rfl rfl rfl)
    (fun _ => of_tables rfl rfl rfl rfl)
    (fun _ _ => of_tables rfl rfl rfl rfl) (fun _ r name _ => observe Observer.noConfusion r name)
    (fun _ _ => of_tables rfl rfl rfl rfl)

theorem bindAttribute (o : ObjectId) (name : String) (op : Operator) (g : FunctionRef)
    (key : ScopeKey) : (LiveBinding.bindAttribute o name op g key).Keeps (Uneventful a x) := by
  refine steady.bindAttribute o name op g key (fun w => modifyDeclared o _ fun _ d => ?_)
    (fun _ _ => of_tables rfl rfl rfl rfl) (fun _ e => modifyDeclared o _ fun _ _ => rfl)
    (fun _ _ => of_tables rfl rfl rfl rfl)
  obtain ⟨_, same, _⟩ := d.declare_eq name
  rw [same]

end Uneventful

/-! ### What attending comes to -/

/-- Whoever attends to an attribute goes on doing so, and there is a chronicle of what has become
known of the attribute. -/
structure Upholds (a : Dependency) (x : WatcherRef) (f : Option FunctionRef) (w w' : World) :
    Prop extends w.Sustains w' where
  attended : w.Attended a x f → w'.Attended a x f ∧ ∃ cs, Chronicle a x f w cs w'

/-- A step that adds nothing, after which the bindings are as before. -/
theorem Sustains.upholds (sustains : w.Sustains w') (same : Uneventful a x w w')
    (bindings : ∀ e, (w'.engine e).bindings.get? a.name = (w.engine e).bindings.get? a.name) :
    Upholds a x f w w' where
  toSustains := sustains
  attended attended :=
    ⟨attended.upkeep sustains (same.held ▸ attended.held) (same.listed attended.held)
      fun _ => bindings _,
      [], .still same.changes same.heard same.stored⟩

/-- What is around a step may put something in progress and finish it again. -/
theorem Upholds.around {v v' : World} (inside : Upholds a x f v v') (sustains : w.Sustains w')
    (enter : w.Attended a x f → v.Attended a x f ∧ v.objects = w.objects ∧ v.told = w.told)
    (leave : w.Attended a x f → v'.Attended a x f → w'.Attended a x f ∧
      w'.objects = v'.objects ∧ w'.told = v'.told) : Upholds a x f w w' where
  toSustains := sustains
  attended attended := by
    obtain ⟨begun, objects, told⟩ := enter attended
    obtain ⟨ended, cs, chronicle⟩ := inside.attended begun
    obtain ⟨after, objects', told'⟩ := leave attended ended
    exact ⟨after, cs, .around (.of_tables objects told) chronicle (.of_tables objects' told')⟩

/-- The guard of another attribute may be put up and taken down again. -/
theorem Upholds.guarded {e : EngineRef} {name : String} (inside : Upholds a x f (w.guard e name) w')
    (other : ∀ h, f = some h → w.engineOf? a.object = some e → name ≠ a.name) :
    Upholds a x f w (w.unguard w' e name) :=
  inside.around (frame_sustains.guarded inside.toSustains)
    (fun before => ⟨before.guard other, w.objects_guard e name, w.told_guard e name⟩)
    fun _ after => ⟨after.unguard w e name, w.objects_unguard w' e name, w.told_unguard w' e name⟩

theorem get?_modifyEngine (w : World) (e e' : EngineRef) (g : Engine → Engine)
    (bindings : ∀ y, (g y).bindings = y.bindings) (name : String) :
    ((w.modifyEngine e g).engine e').bindings.get? name = (w.engine e').bindings.get? name := by
  rw [engine_modifyEngine]
  split
  · rw [bindings]
  · rfl

theorem upholds_border : Border (Upholds a x f) where
  trans first next :=
    { toSustains := frame_sustains.trans first.toSustains next.toSustains
      attended := fun attended => by
        obtain ⟨there, cs, chronicle⟩ := first.attended attended
        obtain ⟨later, cs', chronicle'⟩ := next.attended there
        exact ⟨later, cs ++ cs', .append chronicle chronicle'⟩ }
  quiet quiet := (frame_sustains.quiet quiet).upholds (Uneventful.steady.quiet quiet)
    fun e => by simp only [World.engine, quiet.engines]
  hold inside := inside.around (frame_sustains.hold inside.toSustains)
    (fun attended => ⟨attended.hold _, rfl, rfl⟩)
    fun before after => ⟨{ after with held := before.held }, rfl, rfl⟩
  limited inside := inside.around (frame_sustains.limited inside.toSustains)
    (fun attended => ⟨{ attended with }, rfl, rfl⟩) fun _ after => ⟨{ after with }, rfl, rfl⟩
  nested inside := inside.around (frame_sustains.nested inside.toSustains)
    (fun attended => ⟨{ attended with }, rfl, rfl⟩) fun _ after => ⟨{ after with }, rfl, rfl⟩
  view w o t there := (frame_sustains.view w o t there).upholds
    (.addObject (fun _ => rfl) fun c same => by cases same) fun _ => rfl
  object b w r w' run :=
    { toSustains := frame_sustains.object b w r w' run
      attended := fun attended => by
        obtain ⟨quiet, engines⟩ := Uneventful.newObject b attended.known run
        exact ((frame_sustains.object b w r w' run).upholds quiet
          fun e => by simp only [World.engine, engines]).attended attended }
  slot w o key free := (frame_sustains.slot w o key free).upholds
    (Uneventful.steady.trans (Uneventful.steady.quiet (w.quiet_addLayer .empty))
      (.modifyDeclared o _ fun _ _ => rfl)) fun _ => rfl
  registry w := (frame_sustains.registry w).upholds (.addRegistry) fun _ => rfl
  prune w r name xs found := (frame_sustains.prune w r name xs found).upholds
    (.prune found) fun _ => rfl
  tracer w owner name := (frame_sustains.tracer w owner name).upholds
    (.of_tables rfl rfl rfl rfl) fun _ => rfl
  trace w t o name := (frame_sustains.trace w t o name).upholds
    (.of_tables rfl rfl rfl rfl) fun _ => rfl
  drain w t := (frame_sustains.drain w t).upholds (.of_tables rfl rfl rfl rfl) fun _ => rfl
  engine w config := (frame_sustains.engine w config).upholds (.of_tables rfl rfl rfl rfl)
    fun e => by
      rw [engine_addEngine]
      split
      · next last =>
        rw [w.engine_of_size_le (Nat.le_of_eq last.symm)]
        rfl
      · rfl
  clear w e := (frame_sustains.clear w e).upholds (.of_tables rfl rfl rfl rfl)
    fun e' => w.get?_modifyEngine e e' Engine.clear (fun _ => rfl) a.name
  bound inside := frame_sustains.bound inside.toSustains
  relink w e owner name t bound r w' run :=
    (frame_sustains.relink w e owner name t bound r w' run).upholds
      (.relink e owner name t w r w' run)
      fun e' => by rw [(relink_bound owner t run).2]

/-! ### What concerns something else -/

theorem upholds_touches {o : ObjectId} {name : String} (other : (⟨o, name⟩ : Dependency) ≠ a) :
    Touches (Upholds a x f) o name where
  change w c about := (frame_sustains.change w c).upholds
    (.addObject (fun _ => rfl) fun c' same about' => by
      cases same
      exact other (by rw [← about.1, ← about.2, about'.1, about'.2]))
    fun _ => rfl
  store w d v known free has := (frame_sustains.store w o d name v known free has).upholds
    (.modifyDeclared o _ fun here d => by
      have apart : name ≠ a.name := fun same => other (by rw [here, same])
      exact (Dict.get?_insert ..).trans (if_neg apart))
    fun _ => rfl
  unset w d old known free stored := (frame_sustains.unset w o d name old known free stored).upholds
    (.modifyDeclared o _ fun here d => by
      have apart : name ≠ a.name := fun same => other (by rw [here, same])
      obtain ⟨_, same, _⟩ := Declared.declare_eq {d with values := d.values.erase name} name
      rw [same]
      exact (Dict.get?_erase ..).trans (if_neg apart))
    fun _ => rfl
  tell {_ u} y i c about known since := by
    refine (frame_sustains.tell u y i).upholds (.tell y (since.change? known) fun about' => ?_)
      fun _ => rfl
    exact other (by rw [← about.1, ← about.2, about'.1, about'.2])

/-- What is bound by `::` is never read, so an update is an update of something else. -/
theorem Attended.other_of_read {self : Performer} {e : EngineRef} {o : ObjectId} {name : String}
    {v : Value} (attended : w.Attended a x f)
    (run : Engine.read self e o name w = some (.ok (some v), w')) {h : FunctionRef}
    (same : f = some h) (engine : w.engineOf? a.object = some e) : name ≠ a.name := by
  rintro rfl
  obtain ⟨e', key, engine', bound, _⟩ := attended.bound h same
  rw [engine] at engine'
  cases engine'
  unfold Engine.read at run
  rw [Action.read_bind, bound] at run
  cases run

theorem upholds_updated {self : Performer} (answers : ∀ (β : Type) (q : Request β),
      (self β q).Keeps (Upholds a x f)) {e : EngineRef} {o : ObjectId} {name : String} {v : Value}
    (attended : w.Attended a x f) (run : Engine.read self e o name w = some (.ok (some v), w'))
    (upholds : Upholds a x f w w') :
    (Action.guarding e name (self Unit (.setAttr (.object o) name v))).KeepsAt (Upholds a x f)
      (w'.addEntry (.bindingUpdated o name (w'.text v))) := by
  have other (h : FunctionRef) (same : f = some h)
      (engine : (w'.addEntry (.bindingUpdated o name (w'.text v))).engineOf? a.object = some e) :
      name ≠ a.name := by
    obtain ⟨e', _, engine', _⟩ := attended.bound h same
    refine attended.other_of_read run same ?_
    rw [engine', ← engine]
    exact (upholds.engineOf? engine').symm
  exact Action.KeepsAt.within (fun inside => .guarded inside other) (answers _ _ _)

/-- Performers whose answers uphold what attending comes to are in accord with themselves wherever
somebody attends. -/
theorem upholds_accord {self : Performer} (answers : ∀ (β : Type) (q : Request β),
    (self β q).Keeps (Upholds a x f)) :
    Accord (·.Attended a x f) (Upholds a x f) self self :=
  have H : Answering (·.Attended a x f) (Upholds a x f) self self :=
    { border := upholds_border
      kept := fun attended upholds => (upholds.attended attended).1
      hold := fun hs attended => attended.hold hs
      asked := fun β q => (answers β q).refinesOn }
  have C := H.calling fun attended => { attended with }
  H.accord C (fun _ attended => { attended with }) fun {e o name _ _ _} attended run =>
    have reads := (C.readBinding_at e o name { attended with }).keeps _ _ run
    (upholds_updated answers attended run reads).refines

end World

end LiveBinding
