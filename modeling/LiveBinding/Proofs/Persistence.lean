import LiveBinding.Proofs.Ownership

/-! What stays whatever is asked for.

Code does not change, an object keeps its registry and its engine, names stay bound, and what was
ever put on a list of observers is remembered. Guards are put up and taken down again. A
binding is replaced only by binding its name anew, which the history of the engine tells. -/
namespace LiveBinding

/-- How often a name was bound. -/
def Engine.timesBound (g : Engine) (name : String) : Nat := g.history.count (.bound name)

theorem Engine.timesBound_le_note (g : Engine) (m : Milestone) (name : String) :
    g.timesBound name ≤ (g.note m).timesBound name := List.count_le_count_cons

namespace World
variable {w w' : World}

/-- What is bound, from one world to a later one. -/
structure BindingsLast (w w' : World) : Prop where
  bound : ∀ e name, (w.engine e).bindings.contains name = true →
    (w'.engine e).bindings.contains name = true
  timesBound : ∀ e name, (w.engine e).timesBound name ≤ (w'.engine e).timesBound name
  binding : ∀ e name, (w'.engine e).timesBound name = (w.engine e).timesBound name →
    (w'.engine e).bindings.get? name = (w.engine e).bindings.get? name

/-- What stays even while an object gets its engine. -/
structure Stays (w w' : World) : Prop extends w.BindingsLast w' where
  functions : ∀ {i : Nat} {x}, w.functions[i]? = some x → w'.functions[i]? = some x
  watchers : ∀ {i : Nat} {x}, w.watchers[i]? = some x → w'.watchers[i]? = some x
  entity : ∀ {o x}, w.entity? o = some x → x.declared? = none → w'.entity? o = some x
  registryOf? : ∀ {o r}, w.registryOf? o = some r → w'.registryOf? o = some r
  appearances : ∀ r a x,
    (w.registry r).appearances a x ≤ (w'.registry r).appearances a x

/-- What lasts from any moment of a run to any later one. -/
structure Lasts (w w' : World) : Prop extends w.Stays w' where
  engineOf? : ∀ {o e}, w.engineOf? o = some e → w'.engineOf? o = some e

/-- No guard has been put up without being taken down. -/
def SameGuards (w w' : World) : Prop := ∀ e, (w'.engine e).guards = (w.engine e).guards

/-- What holds of the worlds before and after a request. -/
structure Persists (w w' : World) : Prop extends w.Lasts w' where
  guards : w.SameGuards w'

namespace BindingsLast

theorem trans {w₁ w₂ w₃ : World} (first : w₁.BindingsLast w₂) (next : w₂.BindingsLast w₃) :
    w₁.BindingsLast w₃ where
  bound e name bound := next.bound e name (first.bound e name bound)
  timesBound e name := Nat.le_trans (first.timesBound e name) (next.timesBound e name)
  binding e name same := by
    -- counts only grow, so they are equal on the way as well
    have early := first.timesBound e name
    have late := next.timesBound e name
    exact (next.binding e name (by omega)).trans (first.binding e name (by omega))

theorem of_engine (same : ∀ e, w'.engine e = w.engine e) : w.BindingsLast w' where
  bound e name bound := by rwa [same]
  timesBound e name := Nat.le_of_eq (by rw [same])
  binding e name _ := by rw [same]

theorem modifyEngine (e : EngineRef) (f : Engine → Engine)
    (bound : ∀ g name, g.bindings.contains name = true → (f g).bindings.contains name = true)
    (timesBound : ∀ g name, g.timesBound name ≤ (f g).timesBound name)
    (binding : ∀ g name, (f g).timesBound name = g.timesBound name →
      (f g).bindings.get? name = g.bindings.get? name) :
    w.BindingsLast (w.modifyEngine e f) where
  bound e' name known := by
    rw [engine_modifyEngine]
    split
    · exact bound _ _ known
    · exact known
  timesBound e' name := by
    rw [engine_modifyEngine]
    split
    · exact timesBound _ _
    · exact Nat.le_refl _
  binding e' name same := by
    rw [engine_modifyEngine] at same ⊢
    split at same
    · next both =>
      rw [if_pos both]
      exact binding _ _ same
    · next other => rw [if_neg other]

theorem addBinding (e : EngineRef) (name : String) (b : Binding) :
    w.BindingsLast (w.modifyEngine e (·.addBinding name b)) := by
  have counted (g : Engine) (a : String) : (g.addBinding name b).timesBound a =
      g.timesBound a + if name = a then 1 else 0 := by
    show ((Milestone.bound name :: g.history).count (.bound a)) = _
    rw [List.count_cons]
    simp [Engine.timesBound]
  have found (g : Engine) (a : String) : (g.addBinding name b).bindings.get? a =
      if name = a then some b else g.bindings.get? a := Dict.get?_insert ..
  refine modifyEngine e _ (fun g a known => ?_) (fun g a => ?_) fun g a same => ?_
  · rw [Dict.contains, found]
    split
    · rfl
    · exact known
  · rw [counted]
    exact Nat.le_add_right _ _
  · rw [counted] at same
    rw [found, if_neg]
    intro here
    rw [if_pos here] at same
    omega

theorem addEngine (config : Config) : w.BindingsLast (w.addEngine (.start config)).1 := by
  have same {α : Type} (f : Engine → α) (start : f (.start config) = f default) (e : EngineRef) :
      f ((w.addEngine (.start config)).1.engine e) = f (w.engine e) := by
    rw [engine_addEngine]
    split
    · next last => rw [w.engine_of_size_le (Nat.le_of_eq last.symm), start]
    · rfl
  have bindings (e : EngineRef) := same Engine.bindings rfl e
  have history (e : EngineRef) := same Engine.history rfl e
  exact {
    bound := fun e name bound => by rwa [bindings]
    timesBound := fun e name =>
      Nat.le_of_eq (by rw [Engine.timesBound, Engine.timesBound, history])
    binding := fun e name _ => by rw [bindings] }

end BindingsLast

theorem Stays.trans {w₁ w₂ w₃ : World} (first : w₁.Stays w₂) (next : w₂.Stays w₃) :
    w₁.Stays w₃ where
  toBindingsLast := first.toBindingsLast.trans next.toBindingsLast
  functions here := next.functions (first.functions here)
  watchers here := next.watchers (first.watchers here)
  entity here plain := next.entity (first.entity here plain) plain
  registryOf? here := next.registryOf? (first.registryOf? here)
  appearances r a x := Nat.le_trans (first.appearances r a x) (next.appearances r a x)

theorem entity_modifyDeclared (o : ObjectId) (f : Declared → Declared) {p : ObjectId} {x : Entity}
    (here : w.entity? p = some x) (plain : x.declared? = none) :
    (w.modifyDeclared o f).entity? p = some x := by
  rw [entity?_modifyDeclared, here]
  split
  · cases x with
    | declared d => cases plain
    | _ => rfl
  · rfl

namespace Lasts

theorem trans {w₁ w₂ w₃ : World} (first : w₁.Lasts w₂) (next : w₂.Lasts w₃) : w₁.Lasts w₃ where
  toStays := first.toStays.trans next.toStays
  engineOf? here := next.engineOf? (first.engineOf? here)

theorem change? (lasts : w.Lasts w') {o : ObjectId} {c : Change}
    (here : w.change? o = some c) : w'.change? o = some c := by
  unfold World.change? at here ⊢
  split at here
  · next c' known =>
    rw [lasts.entity known rfl]
    exact here
  · cases here

end Lasts

/-- What does not concern objects, observers and engines. -/
theorem Persists.still (objects : w'.objects = w.objects)
    (registries : w'.registries = w.registries) (engines : w'.engines = w.engines)
    (functions : ∀ {i : Nat} {x}, w.functions[i]? = some x → w'.functions[i]? = some x)
    (watchers : ∀ {i : Nat} {x}, w.watchers[i]? = some x → w'.watchers[i]? = some x) :
    w.Persists w' where
  toBindingsLast := .of_engine fun e => by simp only [World.engine, engines]
  functions := functions
  watchers := watchers
  entity here _ := by simpa only [entity?, objects] using here
  registryOf? here := by simpa only [World.registryOf?, declared?, entity?, objects] using here
  engineOf? here := by simpa only [World.engineOf?, declared?, entity?, objects] using here
  appearances r a x := by simp only [registry, registries, Nat.le_refl]
  guards e := by simp only [World.engine, engines]

theorem Persists.refl (w : World) : w.Persists w := .still rfl rfl rfl id id

/-! ### Guards -/

theorem guards_modifyEngine (e : EngineRef) (f : Engine → Engine)
    (guards : ∀ g, (f g).guards = g.guards) : w.SameGuards (w.modifyEngine e f) := by
  intro e'
  rw [engine_modifyEngine]
  split
  · exact guards _
  · rfl

theorem guards_addEngine (config : Config) : w.SameGuards (w.addEngine (.start config)).1 := by
  intro e
  rw [engine_addEngine]
  split
  · next last =>
    rw [w.engine_of_size_le (Nat.le_of_eq last.symm)]
    rfl
  · rfl

theorem steady_guards : Steady World.SameGuards where
  trans first next e := (next e).trans (first e)
  quiet quiet e := by simp only [World.engine, quiet.engines]

theorem guards_bindAttribute (o : ObjectId) (name : String) (op : Operator) (f : FunctionRef)
    (key : ScopeKey) : (LiveBinding.bindAttribute o name op f key).Keeps World.SameGuards :=
  steady_guards.bindAttribute o name op f key (fun _ _ => rfl) (fun _ c => guards_addEngine c)
    (fun _ _ _ => rfl) fun _ e => guards_modifyEngine e _ fun _ => rfl

/-- An engine that is bound to something is there, and its guards can be put up. -/
theorem mem_guards_guard {e e' : EngineRef} {name a name' : String}
    (bound : (w.engine e).bindings.contains a = true) :
    name' ∈ ((w.guard e name).engine e').guards ↔
      (e' = e ∧ name' = name) ∨ name' ∈ (w.engine e').guards := by
  have inside := inside_of_bound bound
  unfold guard
  split
  · next up =>
    refine ⟨.inr, fun there => there.elim ?_ id⟩
    rintro ⟨rfl, rfl⟩
    exact List.contains_iff_mem.1 up
  · rw [engine_modifyEngine]
    by_cases same : e = e'
    · subst same
      rw [if_pos ⟨rfl, inside⟩]
      simp
    · rw [if_neg fun h => same h.1]
      simp [Ne.symm same]

/-- A guard that is put up is taken down. -/
theorem guards_guarded {e : EngineRef} {name : String} (inside : (w.guard e name).SameGuards w') :
    w.SameGuards (w.unguard w' e name) := by
  unfold guard at inside
  unfold unguard
  split
  · next up => rwa [if_pos up] at inside
  · next down =>
    rw [if_neg down] at inside
    have fresh : name ∉ (w.engine e).guards := by simpa using down
    intro e'
    have raised := inside e'
    rw [engine_modifyEngine] at raised ⊢
    by_cases same : e = e'
    · subst same
      by_cases there : e.index < w.engines.size
      · rw [if_pos ⟨rfl, there⟩] at raised
        split
        · show (w'.engine e).guards.erase name = _
          rw [raised, List.erase_cons_head]
        · next beyond =>
          have gone := w'.engine_of_size_le (Nat.le_of_not_lt fun h => beyond ⟨rfl, h⟩)
          rw [gone] at raised
          cases raised
      · rw [if_neg fun h => there h.2] at raised
        split
        · show (w'.engine e).guards.erase name = _
          rw [raised, List.erase_of_not_mem fresh]
        · exact raised
    · rw [if_neg fun h => same h.1] at raised
      rw [if_neg fun h => same h.1, raised]

/-- Nothing else depends on guards. -/
theorem lasts_guards (w : World) (e : EngineRef) (f : Engine → List String) :
    w.Lasts (w.modifyEngine e fun g => {g with guards := f g}) :=
  { (Persists.refl w).toLasts with
    toBindingsLast := .modifyEngine e _ (fun _ _ bound => bound) (fun _ _ => Nat.le_refl _)
      fun _ _ _ => rfl }

theorem lasts_guard (w : World) (e : EngineRef) (name : String) : w.Lasts (w.guard e name) := by
  unfold guard
  split
  · exact (Persists.refl _).toLasts
  · exact w.lasts_guards e _

theorem lasts_unguard (w₀ w : World) (e : EngineRef) (name : String) :
    w.Lasts (w₀.unguard w e name) := by
  unfold unguard
  split
  · exact (Persists.refl _).toLasts
  · exact w.lasts_guards e _

/-! ### Elementary changes -/

namespace Persists

theorem trans {w₁ w₂ w₃ : World} (first : w₁.Persists w₂) (next : w₂.Persists w₃) :
    w₁.Persists w₃ where
  toLasts := first.toLasts.trans next.toLasts
  guards := steady_guards.trans first.guards next.guards

theorem quiet (quiet : w.Quiet w') : w.Persists w' :=
  .still quiet.objects quiet.registries quiet.engines quiet.functions quiet.watchers

theorem steady : Steady World.Persists := ⟨trans, quiet⟩

theorem steady_stays : Steady World.Stays := ⟨Stays.trans, fun still => (quiet still).toStays⟩

/-- Objects are what they were if they differ in neither registry nor engine. -/
theorem modifyDeclared (o : ObjectId) (f : Declared → Declared)
    (registry : ∀ d, (f d).registry = d.registry) (engine : ∀ d, (f d).engine = d.engine) :
    w.Persists (w.modifyDeclared o f) :=
  { Persists.refl w with
    entity := entity_modifyDeclared o f
    registryOf? := fun here => by rwa [registryOf?_modifyDeclared _ _ _ _ registry]
    engineOf? := fun {p e} here => by
      obtain ⟨d, known, engine'⟩ := Option.bind_eq_some_iff.1 here
      rw [World.engineOf?, declared?_modifyDeclared, known]
      split
      · exact (engine d).trans engine'
      · exact engine' }

theorem addObject (x : Entity) : w.Persists (w.addObject x).1 := by
  have same {o : ObjectId} (there : o.index ≠ w.objects.size) :
      (w.addObject x).1.entity? o = w.entity? o := by rw [entity?_addObject, if_neg there]
  have late {o : ObjectId} (last : o.index = w.objects.size) : w.entity? o = none :=
    Array.getElem?_eq_none (Nat.le_of_eq last.symm)
  have old {o : ObjectId} {d : Declared} (known : w.declared? o = some d) :
      (w.addObject x).1.declared? o = some d := by
    unfold declared? at known ⊢
    rwa [same fun last => by rw [late last] at known; cases known]
  exact { Persists.refl w with
    entity := fun known _ => by
      rwa [same fun last => by rw [late last] at known; cases known]
    registryOf? := fun here => by
      obtain ⟨d, known, same⟩ := Option.map_eq_some_iff.1 here
      exact Option.map_eq_some_iff.2 ⟨d, old known, same⟩
    engineOf? := fun here => by
      obtain ⟨d, known, same⟩ := Option.bind_eq_some_iff.1 here
      exact Option.bind_eq_some_iff.2 ⟨d, old known, same⟩ }

theorem modifyEngine {e : EngineRef} {f : Engine → Engine} (guards : ∀ g, (f g).guards = g.guards)
    (bindings : w.BindingsLast (w.modifyEngine e f)) : w.Persists (w.modifyEngine e f) :=
  { Persists.refl w with
    toBindingsLast := bindings
    guards := guards_modifyEngine e f guards }

/-- A change of an engine that concerns links and what is on record. -/
theorem relinked (e : EngineRef) (f : Engine → Engine) (guards : ∀ g, (f g).guards = g.guards)
    (bindings : ∀ g, (f g).bindings = g.bindings)
    (timesBound : ∀ g name, g.timesBound name ≤ (f g).timesBound name) :
    w.Persists (w.modifyEngine e f) :=
  modifyEngine guards (.modifyEngine e f (fun g name bound => by rwa [bindings]) timesBound
    fun g name _ => by rw [bindings])

theorem modifyRegistry (r : RegistryRef) (f : Registry → Registry)
    (appearances : ∀ x a y, x.appearances a y ≤ (f x).appearances a y) :
    w.Persists (w.modifyRegistry r f) :=
  { Persists.refl w with
    appearances := fun s a y => by
      rw [registry_modifyRegistry]
      split
      · exact appearances _ a y
      · exact Nat.le_refl _ }

theorem addRegistry : w.Persists (w.addRegistry .empty).1 :=
  { Persists.refl w with
    appearances := fun r a x => by
      rw [registry_addRegistry]
      split
      · next last => exact Nat.le_of_eq (by rw [w.registry_of_size_le (Nat.le_of_eq last.symm)])
      · exact Nat.le_refl _ }

theorem observe (r : RegistryRef) (a : String) (x : Observer) :
    w.Persists (w.modifyRegistry r (·.add a x)) :=
  modifyRegistry r _ fun y b z => by
    rw [Registry.appearances_add]
    exact Nat.le_add_right _ _

theorem declare (o : ObjectId) (name : String) :
    w.Persists (w.modifyDeclared o (·.declare name)) := by
  refine modifyDeclared o _ (fun d => ?_) fun d => ?_
  all_goals
    unfold Declared.declare
    split <;> rfl

theorem unset (w : World) (o : ObjectId) (name : String) :
    w.Persists (w.modifyDeclared o fun d =>
      ({d with values := d.values.erase name}).declare name) := by
  refine modifyDeclared o _ (fun d => ?_) fun d => ?_
  all_goals
    unfold Declared.declare
    split <;> rfl

/-- Only an object that has no engine gets one. -/
theorem engineOf?_bindAttribute {o p : ObjectId} {name : String} {op : Operator} {f : FunctionRef}
    {key : ScopeKey} {r : Except BindError Unit} {e : EngineRef}
    (run : LiveBinding.bindAttribute o name op f key w = some (r, w'))
    (here : w.engineOf? p = some e) : w'.engineOf? p = some e := by
  unfold LiveBinding.bindAttribute at run
  rw [Action.read_bind] at run
  cases known : w.declared? o with
  | none =>
    rw [known] at run
    cases run
    exact here
  | some d =>
    rw [known] at run
    let w₁ := w.modifyDeclared o (·.declare name)
    have here₁ : w₁.engineOf? p = some e := (declare o name).engineOf? here
    replace run : (engineFor o d >>= fun e =>
        Action.update (·.modifyEngine e (·.addBinding name (op.bind f key)))) w₁ =
      some (r, w') := run
    unfold engineFor at run
    cases engine : d.engine with
    | some e' =>
      rw [engine] at run
      cases run
      exact here₁
    | none =>
      rw [engine] at run
      obtain ⟨c, w₂, made, objects, _⟩ := newEngine_run (w := w₁) d.config
      rw [Action.bind_assoc, Action.bind_apply, made] at run
      cases run
      have apart : o ≠ p := by
        rintro rfl
        rw [World.engineOf?, known, Option.bind_some, engine] at here
        cases here
      show (((w₂.addEngine (.start c)).1.modifyDeclared o _).declared? p).bind Declared.engine = _
      rw [declared?_modifyDeclared, if_neg apart, ← here₁]
      simp only [World.engineOf?, World.declared?, entity?, addEngine, objects]

theorem addBinding (e : EngineRef) (name : String) (b : Binding) :
    w.Persists (w.modifyEngine e (·.addBinding name b)) :=
  modifyEngine (fun _ => rfl) (.addBinding e name b)

theorem addEngine (config : Config) : w.Persists (w.addEngine (.start config)).1 :=
  { Persists.refl w with
    toBindingsLast := .addEngine config
    guards := guards_addEngine config }

theorem bindAttribute (o : ObjectId) (name : String) (op : Operator) (f : FunctionRef)
    (key : ScopeKey) : (LiveBinding.bindAttribute o name op f key).Keeps World.Persists := by
  have stays : (LiveBinding.bindAttribute o name op f key).Keeps World.Stays :=
    steady_stays.bindAttribute o name op f key (fun _ => (declare o name).toStays)
      (fun _ c => (addEngine c).toStays)
      (fun w e => { (Persists.refl w).toStays with
        entity := entity_modifyDeclared o _
        registryOf? := fun here =>
          (w.registryOf?_modifyDeclared o _ (fun d => {d with engine := some e})
            fun _ => rfl).trans here })
      fun _ e => (addBinding e name _).toStays
  exact fun w r w' run =>
    { toStays := stays w r w' run
      engineOf? := engineOf?_bindAttribute run
      guards := guards_bindAttribute o name op f key w r w' run }

theorem newObject (b : Blueprint) : (LiveBinding.newObject b).Keeps World.Persists :=
  steady.newObject b (fun _ => addRegistry) fun _ _ => addObject _

theorem guarded {e : EngineRef} {name : String} (inside : (w.guard e name).Persists w') :
    w.Persists (w.unguard w' e name) where
  toLasts := ((w.lasts_guard e name).trans inside.toLasts).trans (w.lasts_unguard w' e name)
  guards := guards_guarded inside.guards

end Persists

theorem frame_persists : Frame World.Persists where
  toSteady := Persists.steady
  hold inside := { inside with }
  limited inside := { inside with }
  nested inside := { inside with }
  guarded := Persists.guarded
  change w c := .addObject _
  view w o t _ := .addObject _
  object := Persists.newObject
  store w o d name v _ _ _ := .modifyDeclared o _ (fun _ => rfl) fun _ => rfl
  unset w o _ name _ _ _ _ := .unset w o name
  slot w o key _ :=
    (Persists.quiet (w.quiet_addLayer .empty)).trans
      (.modifyDeclared o _ (fun _ => rfl) fun _ => rfl)
  bind := Persists.bindAttribute
  registry w := .addRegistry
  observe w r name c := .observe r name _
  prune w r name xs _ := .modifyRegistry r _ fun x a y => Nat.le_of_eq (x.appearances_prune ..).symm
  tell w x change := .still rfl rfl rfl id id
  tracer w owner name := .still rfl rfl rfl id id
  trace w t o name := .still rfl rfl rfl id id
  drain w t := .still rfl rfl rfl id id
  engine w config := .addEngine config
  addBinding w e name b := .addBinding e name b
  clear w e := .relinked e _ (fun _ => rfl) (fun _ => rfl) fun g => g.timesBound_le_note .cleared
  bound persists known := persists.bound _ _ known
  relink w e owner name t _ := by
    refine Persists.steady.relink e owner name t (fun _ m => ?_) (fun _ => .still rfl rfl rfl id id)
      (fun _ _ => .still rfl rfl rfl id id) (fun _ r a l => .observe r a (.link l))
      (fun _ ls => ?_) w
    · exact .relinked e _ (fun _ => rfl) (fun _ => rfl) fun g => g.timesBound_le_note m
    · exact .relinked e _ (fun _ => rfl) (fun _ => rfl) fun _ _ => Nat.le_refl _

theorem performing (n : Nat) : Accord (fun _ => True) World.Persists (perform n) (perform n) :=
  frame_persists.performing n

theorem Persists.of_notify {n : Nat} {r : RegistryRef} {change : ObjectId}
    {res : Except BindError Nat} (run : notify (perform n) r change w = some (res, w')) :
    w.Persists w' := ((performing n).notify frame_persists r change).keeps _ _ _ run

/-- Between requests nothing is guarded. -/
theorem guards_of_reachable (reached : Reachable w) (e : EngineRef) : (w.engine e).guards = [] := by
  refine (reached.invariant frame_persists (P := fun w => ∀ e, (w.engine e).guards = [])
    (fun natives e => ?_) (fun persists none e => ?_) (fun _ _ none => none) (fun none => none)) e
  · rfl
  · rw [persists.guards e, none]

end World

end LiveBinding
