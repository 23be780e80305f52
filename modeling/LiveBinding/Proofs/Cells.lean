import LiveBinding.World

/-! Cells after a change.

One law for each table: what is found at a reference after a cell has been added or
changed. A reference beyond the end of its table finds an empty cell, so the laws need no
bounds except where a change would miss. -/
namespace LiveBinding

/-- The declared object there is, if the entity is one. -/
def Entity.declared? : Entity → Option Declared
  | .declared d => some d
  | _ => none

namespace World
variable (w : World)

/-! ### Objects -/

theorem has_iff {o : ObjectId} : w.has o = true ↔ o.index < w.objects.size := by
  simp [has]

theorem entity?_addObject (x : Entity) (o : ObjectId) :
    (w.addObject x).1.entity? o = if o.index = w.objects.size then some x else w.entity? o := by
  simp only [addObject, entity?]
  rw [Array.getElem?_push]

theorem entity?_isSome {o : ObjectId} : (w.entity? o).isSome = w.has o := by
  by_cases inside : o.index < w.objects.size <;> simp [entity?, has, inside]

theorem declared?_eq_some {o : ObjectId} {d : Declared} :
    w.declared? o = some d ↔ w.entity? o = some (.declared d) := by
  unfold declared?
  split
  · next d' found => simp [found]
  · next other =>
    simp only [reduceCtorEq, false_iff]
    exact fun found => other d found

theorem declared?_addObject (x : Entity) (o : ObjectId) :
    (w.addObject x).1.declared? o =
      if o.index = w.objects.size then x.declared? else w.declared? o := by
  rw [declared?, entity?_addObject]
  by_cases last : o.index = w.objects.size
  · simp only [last, if_true]
    cases x <;> rfl
  · simp only [last, if_false]
    rfl

/-- Beyond the end there is no object. -/
theorem declared?_of_size_le {o : ObjectId} (outside : w.objects.size ≤ o.index) :
    w.declared? o = none := by
  rw [declared?, entity?, Array.getElem?_eq_none outside]

theorem entity?_modifyDeclared (o p : ObjectId) (f : Declared → Declared) :
    (w.modifyDeclared o f).entity? p =
      if o = p then (w.entity? p).map (fun | .declared d => .declared (f d) | other => other)
      else w.entity? p := by
  simp only [modifyDeclared, entity?]
  rw [Array.getElem?_modify]
  by_cases same : o = p
  · subst same
    exact (if_pos rfl).trans (if_pos rfl).symm
  · have apart : o.index ≠ p.index := fun h => same (congrArg ObjectId.mk h)
    simp [same, apart]

theorem declared?_modifyDeclared (o p : ObjectId) (f : Declared → Declared) :
    (w.modifyDeclared o f).declared? p =
      if o = p then (w.declared? p).map f else w.declared? p := by
  unfold declared?
  rw [entity?_modifyDeclared]
  by_cases same : o = p
  · simp only [same, if_true]
    rcases w.entity? p with _ | ⟨_ | _ | _⟩ <;> rfl
  · simp only [same, if_false]

theorem registryOf?_modifyDeclared (o p : ObjectId) (f : Declared → Declared)
    (keeps : ∀ d, (f d).registry = d.registry) :
    (w.modifyDeclared o f).registryOf? p = w.registryOf? p := by
  unfold registryOf?
  rw [declared?_modifyDeclared]
  split
  · rw [Option.map_map]
    exact congrFun (congrArg Option.map (funext keeps)) _
  · rfl

/-! ### Registries -/

theorem registry_modifyRegistry (r s : RegistryRef) (f : Registry → Registry) :
    (w.modifyRegistry r f).registry s =
      if r = s ∧ r.index < w.registries.size then f (w.registry s) else w.registry s := by
  simp only [modifyRegistry, registry, Array.getElem?_modify]
  by_cases same : r = s
  · subst same
    by_cases inside : r.index < w.registries.size <;> simp [inside]
  · have apart : r.index ≠ s.index := fun h => same (congrArg RegistryRef.mk h)
    simp [same, apart]

theorem registry_addRegistry (x : Registry) (s : RegistryRef) :
    (w.addRegistry x).1.registry s = if s.index = w.registries.size then x else w.registry s := by
  simp only [addRegistry, registry, Array.getElem?_push]
  split <;> rfl

theorem registry_of_size_le {r : RegistryRef} (outside : w.registries.size ≤ r.index) :
    w.registry r = .empty := by
  rw [registry, Array.getElem?_eq_none outside]
  rfl

/-! ### Engines -/

theorem engine_modifyEngine (e e' : EngineRef) (f : Engine → Engine) :
    (w.modifyEngine e f).engine e' =
      if e = e' ∧ e.index < w.engines.size then f (w.engine e') else w.engine e' := by
  simp only [modifyEngine, engine, Array.getElem?_modify]
  by_cases same : e = e'
  · subst same
    by_cases inside : e.index < w.engines.size <;> simp [inside]
  · have apart : e.index ≠ e'.index := fun h => same (congrArg EngineRef.mk h)
    simp [same, apart]

theorem engine_addEngine (x : Engine) (e : EngineRef) :
    (w.addEngine x).1.engine e = if e.index = w.engines.size then x else w.engine e := by
  simp only [addEngine, engine, Array.getElem?_push]
  split <;> rfl

theorem engine_of_size_le {e : EngineRef} (outside : w.engines.size ≤ e.index) :
    w.engine e = default := by
  rw [engine, Array.getElem?_eq_none outside]
  rfl

/-! ### Tracers -/

theorem tracer_modifyTracer (t u : TracerRef) (f : Tracer → Tracer) :
    (w.modifyTracer t f).tracer u =
      if t = u ∧ t.index < w.tracers.size then f (w.tracer u) else w.tracer u := by
  simp only [modifyTracer, tracer, Array.getElem?_modify]
  by_cases same : t = u
  · subst same
    by_cases inside : t.index < w.tracers.size <;> simp [inside]
  · have apart : t.index ≠ u.index := fun h => same (congrArg TracerRef.mk h)
    simp [same, apart]

theorem tracer_addTracer (x : Tracer) (t : TracerRef) :
    (w.addTracer x).1.tracer t = if t.index = w.tracers.size then x else w.tracer t := by
  simp only [addTracer, tracer, Array.getElem?_push]
  split <;> rfl

end World

end LiveBinding
