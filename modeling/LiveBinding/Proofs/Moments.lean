import LiveBinding.Proofs.Standing
import Mathlib.Logic.Relation

/-! The moments of a run.

Whatever is done to the world is made of elementary changes, and of brackets that are opened and
closed around nested work. Between two moments of a run, in the middle of an operation or not,
lie some of these. So what every such step keeps holds from any moment to any later one, and
what it preserves holds at every moment of every run. -/
namespace LiveBinding

namespace World
variable {w w' : World} {α β : Type}

/-! ### Steps -/

/-- An elementary change, or one side of a bracket. What an operation has checked before a change is
a hypothesis; changes that belong together are one step. -/
inductive Step : World → World → Prop where
  | quiet {w w' : World} (quiet : w.Quiet w') : Step w w'
  | context (w : World) (held : List Handle) (depth : Nat) (limit : Option Nat) :
      Step w {w with held := held, depth := depth, limit := limit}
  | guards (w : World) (e : EngineRef) (f : Engine → List String) :
      Step w (w.modifyEngine e fun g => {g with guards := f g})
  | change (w : World) (c : Change) : Step w (w.addObject (.change c)).1
  | view (w : World) {o : ObjectId} (t : Option TracerRef) (there : w.has o = true) :
      Step w (w.addObject (.view o t)).1
  | object {w w' : World} {b : Blueprint} {r : Except BindError ObjectId}
      (run : newObject b w = some (r, w')) : Step w w'
  | store {w : World} {o : ObjectId} {d : Declared} {name : String} (v : Value)
      (known : w.declared? o = some d) (free : d.isConstant name = false)
      (has : d.hasAttribute name = true) :
      Step w (w.modifyDeclared o fun d => {d with values := d.values.insert name v})
  | unset {w : World} {o : ObjectId} {d : Declared} {name : String} {old : Value}
      (known : w.declared? o = some d) (free : d.isConstant name = false)
      (stored : d.values.get? name = some old) :
      Step w (w.modifyDeclared o fun d => ({d with values := d.values.erase name}).declare name)
  | slot {w : World} {o : ObjectId} {key : ScopeKey} (free : w.localStorage? o key = none) :
      Step w ((w.addLayer .empty).1.modifyDeclared o fun d =>
        {d with storage := d.storage.insert key ⟨w.layers.size⟩})
  | bind {w w' : World} {o : ObjectId} {name : String} {op : Operator} {f : FunctionRef}
      {key : ScopeKey} {r : Except BindError Unit}
      (run : bindAttribute o name op f key w = some (r, w')) : Step w w'
  | registry (w : World) : Step w (w.addRegistry .empty).1
  | observe (w : World) (r : RegistryRef) (name : String) (c : WatcherRef) :
      Step w (w.modifyRegistry r (·.add name (.watcher c)))
  | prune {w : World} {r : RegistryRef} {name : String} {xs : List Observer}
      (found : (w.registry r).slots.get? name = some xs) :
      Step w (w.modifyRegistry r (·.prune name (w.liveObservers xs).contains))
  | tell (w : World) (x : Observer) (change : ObjectId) : Step w (w.tell x change)
  | tracer (w : World) (owner : ObjectId) (name : String) :
      Step w (w.addTracer (.start owner name)).1
  | trace (w : World) (t : TracerRef) (o : ObjectId) (name : String) :
      Step w (w.modifyTracer t (·.record ⟨o, name⟩))
  | drain (w : World) (t : TracerRef) : Step w (w.modifyTracer t Tracer.drain)
  | engine (w : World) (config : Config) : Step w (w.addEngine (.start config)).1
  | addBinding (w : World) (e : EngineRef) (name : String) (b : Binding) :
      Step w (w.modifyEngine e (·.addBinding name b))
  | clear (w : World) (e : EngineRef) : Step w (w.modifyEngine e Engine.clear)
  | relink {w w' : World} {e : EngineRef} {owner : ObjectId} {name : String} {t : TracerRef}
      {r : Except BindError Unit} (bound : (w.engine e).bindings.contains name = true)
      (run : (do Engine.conclude e owner name t; Engine.relink e owner name t) w = some (r, w')) :
      Step w w'

/-- What a frame relates, and both sides of a bracket too, every step relates. -/
theorem Step.related {R S : World → World → Prop} (F : Frame R) (weaken : ∀ {w w'}, R w w' → S w w')
    (context : ∀ (w : World) held depth limit,
      S w {w with held := held, depth := depth, limit := limit})
    (guards : ∀ (w : World) e (f : Engine → List String),
      S w (w.modifyEngine e fun g => {g with guards := f g}))
    (step : Step w w') : S w w' := by
  cases step with
  | quiet quiet => exact weaken (F.quiet quiet)
  | context held depth limit => exact context w held depth limit
  | guards e f => exact guards w e f
  | change c => exact weaken (F.change w c)
  | view t there => exact weaken (F.view w _ t there)
  | object run => exact weaken (F.object _ _ _ _ run)
  | store v known free has => exact weaken (F.store w _ _ _ v known free has)
  | unset known free stored => exact weaken (F.unset w _ _ _ _ known free stored)
  | slot free => exact weaken (F.slot w _ _ free)
  | bind run => exact weaken (F.bind _ _ _ _ _ _ _ _ run)
  | registry => exact weaken (F.registry w)
  | observe r name c => exact weaken (F.observe w r name c)
  | prune found => exact weaken (F.prune w _ _ _ found)
  | tell x change => exact weaken (F.tell w x change)
  | tracer owner name => exact weaken (F.tracer w owner name)
  | trace t o name => exact weaken (F.trace w t o name)
  | drain t => exact weaken (F.drain w t)
  | engine config => exact weaken (F.engine w config)
  | addBinding e name b => exact weaken (F.addBinding w e name b)
  | clear e => exact weaken (F.clear w e)
  | relink bound run => exact weaken (F.relink w _ _ _ _ bound _ _ run)

/-- One moment of a run comes after another, or is the same. -/
def Later : World → World → Prop := Relation.ReflTransGen Step

namespace Later

theorem refl (w : World) : w.Later w := Relation.ReflTransGen.refl

theorem trans {w₁ w₂ w₃ : World} (first : w₁.Later w₂) (next : w₂.Later w₃) : w₁.Later w₃ :=
  Relation.ReflTransGen.trans first next

theorem step (step : Step w w') : w.Later w' := .single step

theorem context (w : World) (held : List Handle) (depth : Nat) (limit : Option Nat) :
    w.Later {w with held := held, depth := depth, limit := limit} :=
  step (.context w held depth limit)

theorem hold (w : World) (hs : List Handle) : w.Later (w.hold hs) := context w _ _ _

theorem around (around : w.Around w') : w.Later w' := by
  obtain ⟨held, depth, limit, rfl⟩ := around
  exact context w held depth limit

theorem guard (w : World) (e : EngineRef) (name : String) : w.Later (w.guard e name) := by
  unfold World.guard
  split
  · exact refl w
  · exact step (.guards w e fun g => name :: g.guards)

theorem unguard (w₀ w : World) (e : EngineRef) (name : String) : w.Later (w₀.unguard w e name) := by
  unfold World.unguard
  split
  · exact refl w
  · exact step (.guards w e fun g => g.guards.erase name)

/-- What every step relates is related at any two moments. -/
theorem related {R S : World → World → Prop} (F : Frame R) (weaken : ∀ {w w'}, R w w' → S w w')
    (S_refl : ∀ w, S w w) (S_trans : ∀ {w₁ w₂ w₃}, S w₁ w₂ → S w₂ w₃ → S w₁ w₃)
    (context : ∀ (w : World) held depth limit,
      S w {w with held := held, depth := depth, limit := limit})
    (guards : ∀ (w : World) e (f : Engine → List String),
      S w (w.modifyEngine e fun g => {g with guards := f g}))
    (later : w.Later w') : S w w' := by
  induction later with
  | refl => exact S_refl w
  | tail _ step ih => exact S_trans ih (step.related F weaken context guards)

/-- Code stays, and so do names that are bound. -/
theorem lasts (later : w.Later w') : w.Lasts w' :=
  related frame_persists (fun persists => persists.toLasts)
    (fun w => (Persists.refl w).toLasts) Lasts.trans
    (fun _ held depth limit => (Around.persists ⟨held, depth, limit, rfl⟩).toLasts)
    (fun w e f => lasts_guards w e f) later

end Later

/-- However an operation ends, the moment it ends at is later than the one it began at. -/
theorem frame_later : Frame Later where
  trans := Later.trans
  quiet quiet := .step (.quiet quiet)
  hold {w w' hs} inside := ((Later.hold w hs).trans inside).trans (.context w' _ _ _)
  limited {w w' n} inside := ((Later.context w _ _ (some n)).trans inside).trans (.context w' _ _ _)
  nested {_ w'} inside := ((Later.context _ _ _ _).trans inside).trans (.context w' _ _ _)
  guarded {w w' e name} inside := ((Later.guard w e name).trans inside).trans (.unguard w w' e name)
  change w c := .step (.change w c)
  view w _ t there := .step (.view w t there)
  object _ _ _ _ run := .step (.object run)
  store _ _ _ _ v known free has := .step (.store v known free has)
  unset _ _ _ _ _ known free stored := .step (.unset known free stored)
  slot _ _ _ free := .step (.slot free)
  bind _ _ _ _ _ _ _ _ run := .step (.bind run)
  registry w := .step (.registry w)
  observe w r name c := .step (.observe w r name c)
  prune _ _ _ _ found := .step (.prune found)
  tell w x change := .step (.tell w x change)
  tracer w owner name := .step (.tracer w owner name)
  trace w t o name := .step (.trace w t o name)
  drain w t := .step (.drain w t)
  engine w config := .step (.engine w config)
  addBinding w e name b := .step (.addBinding w e name b)
  clear w e := .step (.clear w e)
  bound later := later.lasts.bound _ _
  relink _ _ _ _ _ bound _ _ run := .step (.relink bound run)

/-- An answer comes after its request. -/
theorem later_of_answer {n : Nat} {q : Request α} {r : Except BindError α}
    (answer : LiveBinding.perform n α q w = some (r, w')) : w.Later w' :=
  frame_later.perform n q _ _ _ answer

/-- What is asked in order to answer a request comes after that request. -/
theorem later_of_asks {n : Nat} {q : Request α} {q' : Request β}
    (asks : Asks (LiveBinding.perform n) q w q' w') : w.Later w' :=
  of_asks frame_later (fun here later => here.trans later) (fun hs here => here.trans (.hold _ hs))
    (fun here => here.trans (.context _ _ _ _)) (fun _ here => here.trans (.context _ _ _ _))
    (fun e name here => here.trans (.guard _ e name)) asks (.refl w)

/-! ### Worlds that come up -/

/-- A world that comes up in some run, between operations or in the middle of one. -/
def Arises (w : World) : Prop := ∃ natives, (World.initial natives).Later w

theorem Arises.later (arises : w.Arises) (later : w.Later w') : w'.Arises :=
  arises.imp fun _ before => before.trans later

/-- What is so in the beginning and is kept by every step is so in every world that comes up. -/
theorem Arises.invariant {R : World → World → Prop} {P : World → Prop} (F : Frame R)
    (start : ∀ natives, P (.initial natives)) (kept : ∀ {w w'}, R w w' → P w → P w')
    (context : ∀ (w : World) held depth limit, P w →
      P {w with held := held, depth := depth, limit := limit})
    (guards : ∀ (w : World) e (f : Engine → List String), P w →
      P (w.modifyEngine e fun g => {g with guards := f g}))
    (arises : w.Arises) : P w := by
  obtain ⟨natives, later⟩ := arises
  exact Later.related (S := fun w w' => P w → P w') F kept (fun _ => id)
    (fun first next here => next (first here)) context guards later (start natives)

end World

theorem Reachable.arises {w : World} (reached : Reachable w) : w.Arises := by
  induction reached with
  | start natives => exact ⟨natives, .refl _⟩
  | ask _ answer ih => exact ih.later (World.later_of_answer answer)
  | hold _ hs _ ih => exact ih.later (.context _ _ _ _)
  | collect _ ih => exact ih.later (.step (.quiet ⟨rfl, id, id, id, Nat.le_refl _⟩))

theorem Underway.arises {α : Type} {bodies n : Nat} {limit : Option Nat} {q : Request α} {w : World}
    (underway : Underway bodies limit n q w) : w.Arises := by
  induction underway with
  | host reached => exact reached.arises
  | asked _ asks _ _ ih => exact ih.later (World.later_of_asks asks)

end LiveBinding
