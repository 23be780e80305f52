import LiveBinding.Proofs.Execution

/-! Frames: relations between the world before and the world after.

A frame is a relation that every elementary change of the world stays inside and that
survives the brackets around nested work. Whatever a request does is made of such
changes, so the world after any request stands in the relation to the world before it,
with as many nested steps as one likes. -/
namespace LiveBinding

namespace Action
variable {α β : Type} {R : World → World → Prop} {w : World}

/-! ### Keeping a relation -/

/-- However the action ends, if it ends, the world it started in and the world it leaves
are related. -/
def KeepsAt (R : World → World → Prop) (w : World) (a : Action α) : Prop :=
  ∀ r w', a w = some (r, w') → R w w'

def Keeps (R : World → World → Prop) (a : Action α) : Prop := ∀ w, a.KeepsAt R w

theorem KeepsAt.of_eq {a : Action α} {r : Except BindError α} {w' : World}
    (run : a w = some (r, w')) (keeps : R w w') : a.KeepsAt R w := by
  intro r' w'' run'
  rw [run] at run'
  cases run'
  exact keeps

theorem KeepsAt.congr {a : Action α} {b : Action α} (same : a w = b w) (keeps : b.KeepsAt R w) :
    a.KeepsAt R w := by
  intro r w' run
  rw [same] at run
  exact keeps r w' run

/-- What is related inside a bracket is related around it, if the bracket is. -/
theorem KeepsAt.within {enter : World → World} {leave : World → World → World} {a : Action α}
    (bracket : ∀ {w'}, R (enter w) w' → R w (leave w w')) (keeps : a.KeepsAt R (enter w)) :
    (a.within enter leave).KeepsAt R w := by
  intro r w' run
  unfold Action.within at run
  split at run
  · cases run
  · next r' w'' ends =>
    cases run
    exact bracket (keeps _ _ ends)

/-! ### Actions that another one can stand in for -/

/-- However the first action ends, if it ends, the second ends in the same way, and the world it
started in and the world it leaves are related. -/
def RefinesAt (R : World → World → Prop) (w : World) (a b : Action α) : Prop :=
  ∀ r w', a w = some (r, w') → b w = some (r, w') ∧ R w w'

/-- The second action can stand in for the first in every world of a kind. -/
def RefinesOn (A : World → Prop) (R : World → World → Prop) (a b : Action α) : Prop :=
  ∀ w, A w → a.RefinesAt R w b

def Refines (R : World → World → Prop) (a b : Action α) : Prop := ∀ w, a.RefinesAt R w b

theorem KeepsAt.refines {a : Action α} (keeps : a.KeepsAt R w) : a.RefinesAt R w a :=
  fun r w' run => ⟨run, keeps r w' run⟩

theorem Keeps.refines {a : Action α} (keeps : a.Keeps R) : a.Refines R a :=
  fun w => (keeps w).refines

theorem Keeps.refinesOn {A : World → Prop} {a : Action α} (keeps : a.Keeps R) : a.RefinesOn A R a :=
  fun w _ => (keeps w).refines

theorem RefinesOn.keeps {a b : Action α} (refines : a.RefinesOn (fun _ => True) R b) : a.Keeps R :=
  fun w r w' run => (refines w trivial r w' run).2

namespace RefinesAt
variable {a a' b b' : Action α}

theorem keeps (refines : a.RefinesAt R w b) : a.KeepsAt R w := fun r w' run => (refines r w' run).2

/-- Actions that come to the same can stand in for each other. -/
theorem of_eq (same : a w = b w) (keeps : a.KeepsAt R w) : a.RefinesAt R w b :=
  fun r w' run => ⟨same ▸ run, keeps r w' run⟩

/-- Actions that can stand in for each other come to the same. -/
theorem antisymm (refines : a.RefinesAt R w b) (refines' : b.RefinesAt R w a) : a w = b w := by
  rcases one : a w with _ | ⟨r, w'⟩
  · rcases other : b w with _ | ⟨r, w'⟩
    · rfl
    · rw [(refines' r w' other).1] at one
      cases one
  · exact (refines r w' one).1.symm

theorem congr (left : a w = a' w) (right : b w = b' w) (refines : a'.RefinesAt R w b') :
    a.RefinesAt R w b := by
  intro r w' run
  rw [left] at run
  rw [right]
  exact refines r w' run

theorem attempt (refines : a.RefinesAt R w b) : a.attempt.RefinesAt R w b.attempt := by
  intro r w' run
  obtain ⟨r, ended, rfl⟩ := exists_of_attempt run
  obtain ⟨also, keeps⟩ := refines r w' ended
  exact ⟨by rw [attempt_apply, also], keeps⟩

theorem mapError {h : BindError → BindError} (refines : a.RefinesAt R w b) :
    (a.mapError h).RefinesAt R w (b.mapError h) := by
  intro r w' run
  unfold Action.mapError at run ⊢
  split at run
  · cases run
  · next ended =>
    obtain ⟨also, keeps⟩ := refines _ _ ended
    cases run
    exact ⟨by rw [also], keeps⟩
  · next ended =>
    obtain ⟨also, keeps⟩ := refines _ _ ended
    cases run
    exact ⟨by rw [also], keeps⟩

theorem within {enter : World → World} {leave : World → World → World}
    (bracket : ∀ {w'}, R (enter w) w' → R w (leave w w')) (refines : a.RefinesAt R (enter w) b) :
    (a.within enter leave).RefinesAt R w (b.within enter leave) := by
  intro r w' run
  obtain ⟨w₁, ended, rfl⟩ := exists_of_within run
  obtain ⟨also, keeps⟩ := refines r w₁ ended
  exact ⟨by rw [within_apply, also], bracket keeps⟩

end RefinesAt

end Action

/-! ### The brackets of an engine at work -/

namespace World

def hold (w : World) (hs : List Handle) : World := {w with held := hs ++ w.held}

/-- Puts a guard up, unless it is up. -/
def guard (w : World) (e : EngineRef) (name : String) : World :=
  if (w.engine e).guards.contains name then w
  else w.modifyEngine e fun g => {g with guards := name :: g.guards}

/-- Takes down the guard that was put up in an earlier world. -/
def unguard (w w' : World) (e : EngineRef) (name : String) : World :=
  if (w.engine e).guards.contains name then w'
  else w'.modifyEngine e fun g => {g with guards := g.guards.erase name}

/-- What objects, observers and engines are made of, what is in progress, and who has been told of
what. -/
def cells (w : World) :=
  (w.objects, w.tracers, w.registries, w.links, w.engines, w.told, w.depth, w.limit, w.held)

/-- Nothing that objects, observers and engines are made of differs, nor what is in
progress, nobody has been told of anything, and there is the code that there was. Layers may have
been added. -/
structure Quiet (w w' : World) : Prop where
  cells : w'.cells = w.cells
  functions : ∀ {i : Nat} {x}, w.functions[i]? = some x → w'.functions[i]? = some x
  watchers : ∀ {i : Nat} {x}, w.watchers[i]? = some x → w'.watchers[i]? = some x
  natives : ∀ {i : Nat} {x}, w.natives[i]? = some x → w'.natives[i]? = some x
  layers : w.layers.size ≤ w'.layers.size

namespace Quiet
variable {w w' : World} (quiet : w.Quiet w')
include quiet

theorem objects : w'.objects = w.objects := congrArg (·.1) quiet.cells

theorem tracers : w'.tracers = w.tracers := congrArg (·.2.1) quiet.cells

theorem registries : w'.registries = w.registries := congrArg (·.2.2.1) quiet.cells

theorem links : w'.links = w.links := congrArg (·.2.2.2.1) quiet.cells

theorem engines : w'.engines = w.engines := congrArg (·.2.2.2.2.1) quiet.cells

theorem told : w'.told = w.told := congrArg (·.2.2.2.2.2.1) quiet.cells

theorem depth : w'.depth = w.depth := congrArg (·.2.2.2.2.2.2.1) quiet.cells

theorem held : w'.held = w.held := congrArg (·.2.2.2.2.2.2.2.2) quiet.cells

theorem trans {w'' : World} (next : w'.Quiet w'') : w.Quiet w'' where
  cells := next.cells.trans quiet.cells
  functions here := next.functions (quiet.functions here)
  watchers here := next.watchers (quiet.watchers here)
  natives here := next.natives (quiet.natives here)
  layers := Nat.le_trans quiet.layers next.layers

end Quiet

theorem quiet_addLayer (w : World) (locals : Dict String Value) :
    w.Quiet (w.addLayer locals).1 where
  cells := rfl
  functions := id
  watchers := id
  natives := id
  layers := by
    show _ ≤ (w.layers.push locals).size
    rw [Array.size_push]
    exact Nat.le_succ _

theorem quiet_modifyLayer (w : World) (l : LayerRef) (f : Dict String Value → Dict String Value) :
    w.Quiet (w.modifyLayer l f) where
  cells := rfl
  functions := id
  watchers := id
  natives := id
  layers := Nat.le_of_eq Array.size_modify.symm

universe u in
/-- A table that has grown has what it had. -/
theorem getElem?_push_of_eq_some {α : Type u} {xs : Array α} {i : Nat} {x : α} (y : α)
    (here : xs[i]? = some x) : (xs.push y)[i]? = some x := by
  obtain ⟨inside, _⟩ := Array.getElem?_eq_some_iff.1 here
  rw [Array.getElem?_push, if_neg (by omega), here]

end World

/-- A relation that can be followed from one world to the next, and that quiet changes
stay inside. -/
structure Steady (R : World → World → Prop) : Prop where
  trans : ∀ {w₁ w₂ w₃}, R w₁ w₂ → R w₂ w₃ → R w₁ w₃
  quiet : ∀ {w w'}, w.Quiet w' → R w w'

namespace Steady
variable {R : World → World → Prop} (F : Steady R) {α β : Type} {w w' : World}
include F

theorem refl (w : World) : R w w := F.quiet ⟨rfl, id, id, id, Nat.le_refl _⟩

/-! ### Sequencing -/

theorem of_eq {a : Action α} {r : Except BindError α} (run : a w = some (r, w)) : a.KeepsAt R w :=
  .of_eq run (F.refl w)

theorem pure (a : α) : (Pure.pure a : Action α).Keeps R := fun _ => F.of_eq rfl

theorem throw (e : BindError) : (Action.throw e : Action α).Keeps R := fun _ => F.of_eq rfl

theorem ofExcept (r : Except BindError α) : (Action.ofExcept r).Keeps R := fun _ => F.of_eq rfl

theorem read (f : World → α) : (Action.read f).Keeps R := fun _ => F.of_eq rfl

theorem seq_at {a : Action α} {f : α → Action β} (first : a.KeepsAt R w)
    (next : ∀ x w', a w = some (.ok x, w') → (f x).KeepsAt R w') : (a >>= f).KeepsAt R w := by
  intro r w'' run
  rw [Action.bind_apply] at run
  split at run
  · cases run
  · next e w' fails =>
    cases run
    exact first _ _ fails
  · next x w' succeeds =>
    exact F.trans (first _ _ succeeds) (next x w' succeeds r w'' run)

theorem seq {a : Action α} {f : α → Action β} (first : a.Keeps R) (next : ∀ x, (f x).Keeps R) :
    (a >>= f).Keeps R := fun w => F.seq_at (first w) fun x w' _ => next x w'

/-- Goes on after an action that another one stands in for. -/
theorem seq_refines {a b : Action α} {f g : α → Action β} (first : a.RefinesAt R w b)
    (next : ∀ x w', a w = some (.ok x, w') → (f x).RefinesAt R w' (g x)) :
    (a >>= f).RefinesAt R w (b >>= g) := by
  intro r w'' run
  rcases Action.exists_of_bind run with ⟨e, failed, rfl⟩ | ⟨x, w', succeeded, rest⟩
  · obtain ⟨also, keeps⟩ := first _ _ failed
    exact ⟨by rw [Action.bind_apply, also], keeps⟩
  · obtain ⟨also, keeps⟩ := first _ _ succeeded
    obtain ⟨ends, kept⟩ := next x w' succeeded r w'' rest
    exact ⟨by rw [Action.bind_apply, also]; exact ends, F.trans keeps kept⟩

omit F in
/-- Goes on with what has been read. -/
theorem seq_read {f : World → α} {g : α → Action β} (next : (g (f w)).KeepsAt R w) :
    (Action.read f >>= g).KeepsAt R w := next

/-- Goes on from a change of the world. -/
theorem seq_update {f : World → World} {g : Unit → Action β} (change : R w (f w))
    (next : (g ()).KeepsAt R (f w)) : (Action.update f >>= g).KeepsAt R w :=
  fun r w' run => F.trans change (next r w' run)

/-- Goes on with a cell that has been added. -/
theorem seq_add {f : World → World × α} {g : α → Action β} (change : R w (f w).1)
    (next : (g (f w).2).KeepsAt R (f w).1) : (Action.add f >>= g).KeepsAt R w :=
  fun r w' run => F.trans change (next r w' run)

omit F in
theorem attempt_at {a : Action α} (keeps : a.KeepsAt R w) : a.attempt.KeepsAt R w := by
  intro r w' run
  unfold Action.attempt at run
  split at run
  · cases run
  · next r' w'' ends =>
    cases run
    exact keeps _ _ ends

omit F in
theorem attempt {a : Action α} (keeps : a.Keeps R) : a.attempt.Keeps R :=
  fun w => attempt_at (keeps w)

/-! ### Changes that concern neither objects nor observers nor engines -/

theorem update {f : World → World} (quiet : ∀ w : World, w.Quiet (f w)) :
    (Action.update f).Keeps R :=
  fun w => .of_eq rfl (F.quiet (quiet w))

theorem add {f : World → World × α} (quiet : ∀ w : World, w.Quiet (f w).1) :
    (Action.add f).Keeps R :=
  fun w => .of_eq rfl (F.quiet (quiet w))

theorem log (e : LogEntry) : (Action.log e).Keeps R :=
  F.update fun _ => ⟨rfl, id, id, id, Nat.le_refl _⟩

theorem globalConfig : LiveBinding.globalConfig.Keeps R := by
  intro w
  cases given : w.config with
  | some c => exact F.of_eq (globalConfig_of_some given)
  | none =>
    have quiet : w.Quiet {w with config := some (.ofVariables w.hostVariables)} :=
      ⟨rfl, id, id, id, Nat.le_refl _⟩
    exact .of_eq (globalConfig_of_none given) (F.quiet quiet)

theorem depthLimit : LiveBinding.depthLimit.Keeps R := by
  intro w
  have quiet : w.Quiet w.limitAsked := ⟨rfl, id, id, id, Nat.le_refl _⟩
  exact .of_eq (depthLimit_eq w) (F.quiet quiet)

/-! ### Steps that belong together -/

theorem addSlots (slots : Dict ScopeKey LayerRef) (layers : List (ScopeKey × Dict String Value)) :
    (LiveBinding.addSlots slots layers).Keeps R := by
  induction layers generalizing slots with
  | nil => exact F.pure slots
  | cons x rest ih => exact F.seq (F.add fun w => w.quiet_addLayer _) fun _ => ih _

/-- An object is built after its registry. -/
theorem newObject (b : Blueprint) (registry : ∀ w, R w (w.addRegistry .empty).1)
    (object : ∀ w d, R w (w.addObject (.declared d)).1) : (LiveBinding.newObject b).Keeps R :=
  fun w => F.seq_add (registry w) (F.seq (F.addSlots _ _) (fun _ w => .of_eq rfl (object w _)) _)

theorem newEngine (config : Option Config) (engine : ∀ w c, R w (w.addEngine (.start c)).1) :
    (LiveBinding.newEngine config).Keeps R := by
  have start (c : Config) : (Action.add (·.addEngine (.start c))).Keeps R :=
    fun w => .of_eq rfl (engine w c)
  cases config with
  | some c => exact F.seq (F.pure c) start
  | none => exact F.seq F.globalConfig start

/-- Binding declares the attribute, sees to the engine and adds the binding to it. -/
theorem bindAttribute (o : ObjectId) (name : String) (op : Operator) (f : FunctionRef)
    (key : ScopeKey) (declare : ∀ w, R w (w.modifyDeclared o (·.declare name)))
    (engine : ∀ w c, R w (w.addEngine (.start c)).1)
    (enlist : ∀ w e, R w (w.modifyDeclared o fun d => {d with engine := some e}))
    (bind : ∀ w e, R w (w.modifyEngine e (·.addBinding name (op.bind f key)))) :
    (LiveBinding.bindAttribute o name op f key).Keeps R := by
  intro w
  refine seq_read ?_
  split
  · exact F.pure () w
  · next d _ =>
    have last (e : EngineRef) :
        (Action.update (·.modifyEngine e (·.addBinding name (op.bind f key)))).Keeps R :=
      fun w => .of_eq rfl (bind w e)
    have found : (engineFor o d).Keeps R := by
      unfold engineFor
      split
      · exact F.pure _
      · exact F.seq (F.newEngine d.config engine) fun e w =>
          F.seq_update (enlist w e) (F.pure e _)
    exact F.seq_update (declare w) (F.seq found last _)

/-- An evaluation is put on record, its tracer is drained, and links are made, registered
and kept. -/
theorem relink (e : EngineRef) (owner : ObjectId) (name : String) (t : TracerRef)
    (note : ∀ w m, R w (w.modifyEngine e (·.note m)))
    (drain : ∀ w, R w (w.modifyTracer t Tracer.drain))
    (link : ∀ w k, R w (w.addLink k).1)
    (observe : ∀ w r a l, R w (w.modifyRegistry r (·.add a (.link l))))
    (links : ∀ w ls, R w (w.modifyEngine e fun g => {g with links := g.links.insert name ls})) :
    (do Engine.conclude e owner name t; Engine.relink e owner name t).Keeps R := by
  have follow (d : Dependency) : (Engine.follow e owner name d).Keeps R := by
    unfold Engine.follow
    split
    · exact F.pure none
    · refine F.seq (F.read _) fun r => ?_
      cases r with
      | none => exact F.pure none
      | some r =>
        refine fun w => F.seq_add (link w _) (F.seq_update (observe _ r d.name _) ?_)
        exact F.pure _ _
  have followAll (ds : List Dependency) : (Engine.followAll e owner name ds).Keeps R := by
    induction ds with
    | nil => exact F.pure []
    | cons d rest ih => exact F.seq (follow d) fun _ => F.seq ih fun _ => F.pure _
  have keep (ls : List LinkRef) : (Action.update
      (·.modifyEngine e fun g => {g with links := g.links.insert name ls})).Keeps R :=
    fun w => .of_eq rfl (links w ls)
  refine fun w => F.seq_update (note w _) (F.seq (F.read _) (fun config => ?_) _)
  split
  · refine F.seq (F.read _) fun ds w => F.seq_update (drain w) (F.seq (followAll ds) ?_ _)
    exact fun ls => F.seq (F.log _) fun _ => F.seq (F.pure ls) keep
  · exact F.seq (F.pure []) keep

end Steady

/-- A relation that elementary changes stay inside which neither change an attribute nor bind one
nor make a change up or tell of one. What an operation has checked before a change is a hypothesis
of its field; changes that belong together are one field. -/
structure Border (R : World → World → Prop) : Prop extends Steady R where
  hold : ∀ {w w' hs}, R (w.hold hs) w' → R w {w' with held := w.held}
  limited : ∀ {w w' n}, R {w with limit := some n} w' → R w {w' with limit := w.limit}
  nested : ∀ {w w'}, R {w with depth := w.depth + 1} w' → R w {w' with depth := w'.depth - 1}
  view : ∀ w o t, w.has o = true → R w (w.addObject (.view o t)).1
  object : ∀ b, (newObject b).Keeps R
  slot : ∀ w o key, w.localStorage? o key = none →
    R w ((w.addLayer .empty).1.modifyDeclared o fun d =>
      {d with storage := d.storage.insert key ⟨w.layers.size⟩})
  registry : ∀ w, R w (w.addRegistry .empty).1
  prune : ∀ w r name xs, (w.registry r).slots.get? name = some xs →
    R w (w.modifyRegistry r (·.prune name (w.liveObservers xs).contains))
  tracer : ∀ w owner name, R w (w.addTracer (.start owner name)).1
  trace : ∀ w t o name, R w (w.modifyTracer t (·.record ⟨o, name⟩))
  drain : ∀ w t, R w (w.modifyTracer t Tracer.drain)
  engine : ∀ w config, R w (w.addEngine (.start config)).1
  clear : ∀ w e, R w (w.modifyEngine e Engine.clear)
  /-- Bindings stay. -/
  bound : ∀ {w w' e name}, R w w' → (w.engine e).bindings.contains name = true →
    (w'.engine e).bindings.contains name = true
  relink : ∀ w e owner name t, (w.engine e).bindings.contains name = true →
    (do Engine.conclude e owner name t; Engine.relink e owner name t).KeepsAt R w

/-- A relation that all elementary changes stay inside. -/
structure Frame (R : World → World → Prop) : Prop extends Border R where
  guarded : ∀ {w w' e name}, R (w.guard e name) w' → R w (w.unguard w' e name)
  change : ∀ w c, R w (w.addObject (.change c)).1
  store : ∀ w o d name v, w.declared? o = some d → d.isConstant name = false →
    d.hasAttribute name = true →
    R w (w.modifyDeclared o fun d => {d with values := d.values.insert name v})
  unset : ∀ w o d name old, w.declared? o = some d → d.isConstant name = false →
    d.values.get? name = some old →
    R w (w.modifyDeclared o fun d => ({d with values := d.values.erase name}).declare name)
  bind : ∀ o name op f key, (bindAttribute o name op f key).Keeps R
  observe : ∀ w r name c, R w (w.modifyRegistry r (·.add name (.watcher c)))
  tell : ∀ w x change, R w (w.tell x change)
  addBinding : ∀ w e name b, R w (w.modifyEngine e (·.addBinding name b))

end LiveBinding
