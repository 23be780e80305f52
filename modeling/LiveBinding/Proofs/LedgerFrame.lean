import LiveBinding.Proofs.FrameOperations
import LiveBinding.Proofs.Ledger

/-! The ledger stays in order whatever is asked for.

Most changes do not touch what the ledger speaks of. New objects bring registries of their
own, new bindings and cleared engines let links go, and an evaluation gets its links in
one step. -/
namespace LiveBinding.World
variable {w w' : World} {e : EngineRef} {name : String}

/-! ### Changes the ledger does not speak of -/

/-- What is observable stays so. -/
structure SameObservable (w w' : World) : Prop where
  registryOf? : ∀ o, w'.registryOf? o = w.registryOf? o
  has : ∀ o, w.has o = true → w'.has o = true

theorem SameObservable.of_eq (objects : w'.objects = w.objects) : w.SameObservable w' where
  registryOf? o := by simp only [World.registryOf?, declared?, entity?, objects]
  has o there := by rwa [World.has, objects]

/-- Links are listed where they were. -/
structure SameListed (w w' : World) : Prop where
  registries : w.registries.size ≤ w'.registries.size
  appearances : ∀ r a l, (w'.registry r).appearances a (.link l) =
    (w.registry r).appearances a (.link l)

theorem SameListed.of_eq (registries : w'.registries = w.registries) : w.SameListed w' where
  registries := Nat.le_of_eq (by rw [registries])
  appearances r a l := by simp only [registry, registries]

/-- What engines have on record is the same, and so is what they are. -/
structure SameRecords (w w' : World) : Prop where
  linksOf : ∀ e, (w'.engine e).links = (w.engine e).links
  history : ∀ e, (w'.engine e).history = (w.engine e).history
  config : ∀ e, (w.engine e).history ≠ [] → (w'.engine e).config = (w.engine e).config
  bindings : ∀ e, (w'.engine e).bindings = (w.engine e).bindings

theorem SameRecords.of_eq (engines : w'.engines = w.engines) : w.SameRecords w' where
  linksOf e := by simp only [World.engine, engines]
  history e := by simp only [World.engine, engines]
  config e _ := by simp only [World.engine, engines]
  bindings e := by simp only [World.engine, engines]

/-- Observability, links and what engines have on record are the same, so far as they
concern anything that there was. -/
structure Still (w w' : World) : Prop extends
    w.SameObservable w', w.SameListed w', w.SameRecords w' where
  links : w'.links = w.links
  traced : ∀ t, (w.tracer t).dependencies.Nodup → (w'.tracer t).dependencies.Nodup

namespace Still

theorem trans {w'' : World} (first : w.Still w') (next : w'.Still w'') : w.Still w'' where
  registryOf? o := (next.registryOf? o).trans (first.registryOf? o)
  has o there := next.has o (first.has o there)
  registries := Nat.le_trans first.registries next.registries
  appearances r a l := (next.appearances r a l).trans (first.appearances r a l)
  linksOf e := (next.linksOf e).trans (first.linksOf e)
  history e := (next.history e).trans (first.history e)
  config e some := (next.config e (by rwa [first.history])).trans (first.config e some)
  bindings e := (next.bindings e).trans (first.bindings e)
  links := next.links.trans first.links
  traced t nodup := next.traced t (first.traced t nodup)

theorem latest (still : w.Still w') (e : EngineRef) (name : String) :
    (w'.engine e).latest name = (w.engine e).latest name := by
  rw [Engine.latest, Engine.latest, still.history]

theorem due (still : w.Still w') {v : Evaluation} (found : (w.engine e).latest name = some v) :
    w'.due e name v = w.due e name v := by
  have some : (w.engine e).history ≠ [] := by
    intro none
    rw [Engine.latest, none] at found
    cases found
  have follows : w'.follows v.owner name = w.follows v.owner name := by
    funext d
    rw [World.follows, World.follows, still.registryOf?]
  rw [World.due, World.due, still.config e some, follows]

theorem ledger (still : w.Still w') (ledger : w.Ledger) : w'.Ledger where
  tidy := by
    constructor
    · intro o r found
      rw [still.registryOf?] at found
      exact Nat.lt_of_lt_of_le (ledger.tidy.built found) still.registries
    · intro o p r here there
      rw [still.registryOf?] at here there
      exact ledger.tidy.apart here there
    · intro r a l some
      rw [still.appearances] at some
      rw [still.links]
      exact ledger.tidy.made some
    · intro r s a b l here there
      rw [still.appearances] at here there
      exact ledger.tidy.once here there
  answers e name := by
    refine (ledger.answers e name).transport ?_ (still.latest e name)
      (fun v found => still.due found) fun v l d placed => ⟨placed.later, ?_, ?_⟩
    · rw [Engine.linksOf, Engine.linksOf, still.linksOf]
    · rw [still.links]
      exact placed.made
    · obtain ⟨r, found, count⟩ := placed.registered
      exact ⟨r, by rw [still.registryOf?, found], by rw [still.appearances, count]⟩
  nodup found := by
    rw [still.latest] at found
    exact ledger.nodup found
  known found d mem := by
    rw [still.latest] at found
    exact still.has _ (ledger.known found d mem)
  bound links := by
    rw [still.linksOf] at links
    rw [still.bindings]
    exact ledger.bound links
  traced t := still.traced t (ledger.traced t)

end Still

/-- What an operation keeps: the ledger, what is held, how many bodies are running, and
every binding's name. -/
structure Kept (w w' : World) : Prop where
  ledger : w.Ledger → w'.Ledger
  progress : w'.held = w.held ∧ w'.depth = w.depth
  bound : ∀ {e name}, (w.engine e).bindings.contains name = true →
    (w'.engine e).bindings.contains name = true

theorem Still.kept (still : w.Still w') (progress : w'.held = w.held ∧ w'.depth = w.depth) :
    w.Kept w' where
  ledger := still.ledger
  progress := progress
  bound found := by
    rw [still.bindings]
    exact found

theorem Quiet.still (quiet : w.Quiet w') : w.Still w' where
  toSameObservable := .of_eq quiet.objects
  toSameListed := .of_eq quiet.registries
  toSameRecords := .of_eq quiet.engines
  links := quiet.links
  traced t nodup := by simpa only [tracer, quiet.tracers] using nodup

/-! ### Objects -/

theorem has_addObject (x : Entity) {o : ObjectId} (there : w.has o = true) :
    (w.addObject x).1.has o = true := by
  rw [has_iff] at there ⊢
  show o.index < (w.objects.push x).size
  rw [Array.size_push]
  exact Nat.lt_succ_of_lt there

/-- Changes and views are not observable. -/
theorem still_addObject {x : Entity} (plain : ∀ d, x ≠ .declared d) :
    w.Still (w.addObject x).1 where
  registryOf? o := by
    have none : x.declared? = none := by
      cases x with
      | declared d => exact absurd rfl (plain d)
      | change c => rfl
      | view p t => rfl
    rw [World.registryOf?, declared?_addObject, none]
    split
    · next last =>
      rw [World.registryOf?, declared?_of_size_le _ (Nat.le_of_eq last.symm)]
    · rfl
  has _ := has_addObject x
  toSameListed := .of_eq rfl
  toSameRecords := .of_eq rfl
  links := rfl
  traced _ := id

theorem still_modifyDeclared (o : ObjectId) (f : Declared → Declared)
    (keeps : ∀ d, (f d).registry = d.registry) : w.Still (w.modifyDeclared o f) where
  registryOf? p := w.registryOf?_modifyDeclared o p f keeps
  has p there := by
    rw [has_iff] at there ⊢
    show p.index < (w.objects.modify o.index _).size
    rw [Array.size_modify]
    exact there
  toSameListed := .of_eq rfl
  toSameRecords := .of_eq rfl
  links := rfl
  traced _ := id

theorem still_addRegistry : w.Still (w.addRegistry .empty).1 where
  toSameObservable := .of_eq rfl
  toSameRecords := .of_eq rfl
  links := rfl
  traced _ := id
  registries := by
    show w.registries.size ≤ (w.registries.push _).size
    rw [Array.size_push]
    exact Nat.le_succ _
  appearances r a l := by
    rw [registry_addRegistry]
    split
    · next last => rw [w.registry_of_size_le (Nat.le_of_eq last.symm)]
    · rfl

/-- A new object has the latest registry, which no other object has. -/
theorem ledger_addDeclared (ledger : w.Ledger) {d : Declared}
    (fresh : ∀ o, w.registryOf? o ≠ some d.registry)
    (built : d.registry.index < w.registries.size) : (w.addObject (.declared d)).1.Ledger := by
  have registryOf? (o : ObjectId) : (w.addObject (.declared d)).1.registryOf? o =
      if o.index = w.objects.size then some d.registry else w.registryOf? o := by
    rw [World.registryOf?, declared?_addObject]
    split <;> rfl
  have old {o : ObjectId} (there : w.has o = true) :
      (w.addObject (.declared d)).1.registryOf? o = w.registryOf? o := by
    rw [has_iff] at there
    rw [registryOf?, if_neg (Nat.ne_of_lt there)]
  constructor
  · constructor
    · intro o r found
      rw [registryOf?] at found
      split at found
      · cases found
        exact built
      · exact ledger.tidy.built found
    · intro o p r here there
      rw [registryOf?] at here there
      split at here
      · next last =>
        cases here
        split at there
        · next last' => exact congrArg ObjectId.mk (last.trans last'.symm)
        · exact absurd there (fresh p)
      · split at there
        · cases there
          exact absurd here (fresh o)
        · exact ledger.tidy.apart here there
    · exact ledger.tidy.made
    · exact ledger.tidy.once
  · intro e name
    refine (ledger.answers e name).transport rfl rfl (fun v found => ?_) fun v l x placed => ?_
    · have same (x : Dependency) (mem : x ∈ v.consulted) :
          (w.addObject (.declared d)).1.follows v.owner name x = w.follows v.owner name x := by
        rw [World.follows, World.follows, old (ledger.known found x mem)]
      exact ite_congr rfl (fun _ => List.filter_congr same) fun _ => rfl
    · obtain ⟨r, found, count⟩ := placed.registered
      refine ⟨placed.later, placed.made, r, ?_, count⟩
      have there : w.has x.object = true := by
        rw [has_iff]
        by_contra outside
        rw [World.registryOf?, declared?_of_size_le _ (Nat.le_of_not_lt outside)] at found
        cases found
      rw [old there, found]
  · exact ledger.nodup
  · exact fun found x mem => has_addObject _ (ledger.known found x mem)
  · exact ledger.bound
  · exact ledger.traced

/-! ### Registries and tracers -/

theorem still_modifyRegistry (r : RegistryRef) (f : Registry → Registry)
    (same : ∀ x a l, (f x).appearances a (.link l) = x.appearances a (.link l)) :
    w.Still (w.modifyRegistry r f) where
  toSameObservable := .of_eq rfl
  toSameRecords := .of_eq rfl
  links := rfl
  traced _ := id
  registries := by
    show w.registries.size ≤ (w.registries.modify r.index f).size
    exact Nat.le_of_eq Array.size_modify.symm
  appearances s a l := by
    rw [registry_modifyRegistry]
    split
    · exact same _ a l
    · rfl

theorem still_tell (x : Observer) (change : ObjectId) : w.Still (w.tell x change) where
  toSameObservable := .of_eq rfl
  toSameListed := .of_eq rfl
  toSameRecords := .of_eq rfl
  links := rfl
  traced _ := id

theorem still_addTracer (owner : ObjectId) (name : String) :
    w.Still (w.addTracer (.start owner name)).1 where
  toSameObservable := .of_eq rfl
  toSameListed := .of_eq rfl
  toSameRecords := .of_eq rfl
  links := rfl
  traced t nodup := by
    rw [tracer_addTracer]
    split
    · exact List.nodup_nil
    · exact nodup

theorem still_modifyTracer (t : TracerRef) (f : Tracer → Tracer)
    (keeps : ∀ x, x.dependencies.Nodup → (f x).dependencies.Nodup) :
    w.Still (w.modifyTracer t f) where
  toSameObservable := .of_eq rfl
  toSameListed := .of_eq rfl
  toSameRecords := .of_eq rfl
  links := rfl
  traced u nodup := by
    rw [tracer_modifyTracer]
    split
    · exact keeps _ nodup
    · exact nodup

/-! ### Engines -/

/-- A name that is bound anew has no links, and neither has a cleared engine. -/
theorem ledger_modifyEngine (ledger : w.Ledger) (e : EngineRef) (f : Engine → Engine)
    (config : ∀ g, (f g).config = g.config)
    (bound : ∀ g, (∀ a, g.links.contains a = true → g.bindings.contains a = true) →
      ∀ a, (f g).links.contains a = true → (f g).bindings.contains a = true)
    (names : ∀ g, (∀ a, g.links.contains a = true → g.bindings.contains a = true) → ∀ a,
      (f g).latest a = none ∧ (f g).linksOf a = [] ∨
        (f g).latest a = g.latest a ∧ (f g).linksOf a = g.linksOf a) :
    (w.modifyEngine e f).Ledger := by
  have engine (e' : EngineRef) := w.engine_modifyEngine e e' f
  have cases (e' : EngineRef) (a : String) :
      ((w.modifyEngine e f).engine e').latest a = none ∧
          ((w.modifyEngine e f).engine e').linksOf a = [] ∨
        ((w.modifyEngine e f).engine e').latest a = (w.engine e').latest a ∧
          ((w.modifyEngine e f).engine e').linksOf a = (w.engine e').linksOf a := by
    rw [engine]
    split
    · exact names _ (fun _ => ledger.bound) a
    · exact .inr ⟨rfl, rfl⟩
  have latest {e' : EngineRef} {a : String} {v : Evaluation}
      (found : ((w.modifyEngine e f).engine e').latest a = some v) :
      (w.engine e').latest a = some v := by
    rcases cases e' a with ⟨gone, _⟩ | ⟨same, _⟩
    · rw [gone] at found
      cases found
    · rw [← same, found]
  constructor
  · exact ⟨ledger.tidy.built, ledger.tidy.apart, ledger.tidy.made, ledger.tidy.once⟩
  · intro e' a
    rcases cases e' a with ⟨none, empty⟩ | ⟨latest, links⟩
    · unfold Answers
      rw [none]
      exact empty
    · refine (ledger.answers e' a).transport links latest (fun v _ => ?_)
        fun v l d placed => ⟨placed.later, placed.made, placed.registered⟩
      have same : ((w.modifyEngine e f).engine e').config = (w.engine e').config := by
        rw [engine]
        split
        · exact config _
        · rfl
      unfold World.due
      rw [same]
      rfl
  · exact fun found => ledger.nodup (latest found)
  · exact fun found => ledger.known (latest found)
  · intro e' a links
    rw [engine] at links ⊢
    split at links
    · next both =>
      rw [if_pos both]
      exact bound _ (fun _ => ledger.bound) a links
    · next other =>
      rw [if_neg other]
      exact ledger.bound links
  · exact ledger.traced

theorem kept_addBinding (e : EngineRef) (name : String) (b : Binding) :
    w.Kept (w.modifyEngine e (·.addBinding name b)) where
  ledger ledger := by
    refine ledger_modifyEngine ledger e _ (fun _ => rfl) (fun g inside a links => ?_)
      fun g inside a => ?_
    · have kept : g.links.contains a = true := by
        show (g.links.get? a).isSome = true
        have links' : ((if g.bindings.contains name then g.links.erase name
            else g.links).get? a).isSome = true := links
        split at links'
        · rw [Dict.get?_erase] at links'
          split at links'
          · cases links'
          · exact links'
        · exact links'
      show ((g.bindings.insert name b).get? a).isSome = true
      rw [Dict.get?_insert]
      split
      · rfl
      · exact inside a kept
    · rw [Engine.latest_addBinding, Engine.linksOf_addBinding g name a b (inside name)]
      by_cases same : name = a
      · exact .inl ⟨if_pos same, if_pos same⟩
      · exact .inr ⟨if_neg same, if_neg same⟩
  progress := ⟨rfl, rfl⟩
  bound {e' a} found := by
    rw [engine_modifyEngine]
    split
    · show (((w.engine e').bindings.insert name b).get? a).isSome = true
      rw [Dict.get?_insert]
      split
      · rfl
      · exact found
    · exact found

theorem kept_clear (e : EngineRef) : w.Kept (w.modifyEngine e Engine.clear) where
  ledger ledger := by
    refine ledger_modifyEngine ledger e _ (fun _ => rfl) (fun g _ a links => ?_)
      fun g _ a => .inl ⟨rfl, rfl⟩
    cases links
  progress := ⟨rfl, rfl⟩
  bound {e' a} found := by
    rw [engine_modifyEngine]
    split <;> exact found

/-- Changing guards is not on record. -/
theorem still_guards (e : EngineRef) (f : Engine → List String) :
    w.Still (w.modifyEngine e fun g => {g with guards := f g}) where
  toSameObservable := .of_eq rfl
  toSameListed := .of_eq rfl
  links := rfl
  traced _ := id
  linksOf e' := by
    rw [engine_modifyEngine]
    split <;> rfl
  history e' := by
    rw [engine_modifyEngine]
    split <;> rfl
  config e' _ := by
    rw [engine_modifyEngine]
    split <;> rfl
  bindings e' := by
    rw [engine_modifyEngine]
    split <;> rfl

theorem still_addEngine (config : Config) : w.Still (w.addEngine (.start config)).1 := by
  have engine (e : EngineRef) := w.engine_addEngine (.start config) e
  have blank {e : EngineRef} (last : e.index = w.engines.size) : w.engine e = default :=
    w.engine_of_size_le (Nat.le_of_eq last.symm)
  have same {α : Type} (f : Engine → α) (start : f (.start config) = f default)
      (e : EngineRef) : f ((w.addEngine (.start config)).1.engine e) = f (w.engine e) := by
    rw [engine]
    split
    · next last => rw [blank last, start]
    · rfl
  exact {
    toSameObservable := .of_eq rfl
    toSameListed := .of_eq rfl
    links := rfl
    traced := fun _ => id
    linksOf := same Engine.links rfl
    history := same Engine.history rfl
    bindings := same Engine.bindings rfl
    config := fun e some => by
      rw [engine, if_neg]
      intro last
      rw [blank last] at some
      exact some rfl }

/-! ### Everything -/

theorem Kept.trans {w₁ w₂ w₃ : World} (first : w₁.Kept w₂) (next : w₂.Kept w₃) :
    w₁.Kept w₃ where
  ledger ledger := next.ledger (first.ledger ledger)
  progress := ⟨next.progress.1.trans first.progress.1, next.progress.2.trans first.progress.2⟩
  bound found := next.bound (first.bound found)

theorem steady_kept : Steady World.Kept where
  trans := Kept.trans
  quiet quiet := quiet.still.kept ⟨quiet.held, quiet.depth⟩

theorem addSlots_kept (slots : Dict ScopeKey LayerRef)
    (layers : List (ScopeKey × Dict String Value)) :
    ∃ slots' w', addSlots slots layers w = some (.ok slots', w') ∧ w.Quiet w' := by
  induction layers generalizing slots w with
  | nil => exact ⟨slots, w, rfl, ⟨rfl, id, id, id, Nat.le_refl _⟩⟩
  | cons x rest ih =>
    obtain ⟨slots', w', run, quiet⟩ :=
      ih (slots.insert x.1 ⟨w.layers.size⟩) (w := (w.addLayer x.2).1)
    exact ⟨slots', w', run, (w.quiet_addLayer x.2).trans quiet⟩

theorem newObject_kept (b : Blueprint) : (newObject b).Keeps World.Kept := by
  intro w
  let w₁ := (w.addRegistry .empty).1
  obtain ⟨slots, w₂, run, quiet⟩ := addSlots_kept (w := w₁) .empty b.storage.entries
  have still : w.Still w₁ := still_addRegistry
  have registries : w₂.registries.size = w.registries.size + 1 := by
    rw [quiet.registries]
    exact Array.size_push _
  have ends : newObject b w = some (.ok ⟨w₂.objects.size⟩, (w₂.addObject (.declared
      { typeName := b.typeName
        parent := b.parent.filter w₂.has
        members := b.members
        constants := b.constants.keys
        values := b.attributes.insertAll b.constants.entries
        storage := slots
        registry := ⟨w.registries.size⟩
        config := b.config
        engine := none })).1) := by
    show (addSlots .empty b.storage.entries >>= _) w₁ = _
    rw [Action.bind_apply, run]
    rfl
  refine .of_eq ends ⟨fun ledger => ?_, ⟨quiet.held, quiet.depth⟩, fun found => ?_⟩
  · refine ledger_addDeclared (quiet.still.ledger (still.ledger ledger)) (fun o taken => ?_) ?_
    · rw [quiet.still.registryOf?] at taken
      exact Nat.lt_irrefl _ (ledger.tidy.built taken)
    · rw [registries]
      exact Nat.lt_succ_self _
  · exact (quiet.still.kept ⟨quiet.held, quiet.depth⟩).bound found

theorem still_declare (o : ObjectId) (name : String) :
    w.Still (w.modifyDeclared o (·.declare name)) :=
  still_modifyDeclared o _ fun d => by
    unfold Declared.declare
    split <;> rfl

theorem bindAttribute_kept (o : ObjectId) (name : String) (op : Operator) (f : FunctionRef)
    (key : ScopeKey) : (bindAttribute o name op f key).Keeps World.Kept :=
  steady_kept.bindAttribute o name op f key (fun _ => (still_declare o name).kept ⟨rfl, rfl⟩)
    (fun _ c => (still_addEngine c).kept ⟨rfl, rfl⟩)
    (fun _ e => (still_modifyDeclared o (fun d => {d with engine := some e})
      fun _ => rfl).kept ⟨rfl, rfl⟩)
    (fun _ e => kept_addBinding e name _)

/-- What is in progress and which names are bound do not depend on the ledger. -/
theorem relink_bound {w' : World} (owner : ObjectId) (t : TracerRef) {r : Except BindError Unit}
    (run : (do Engine.conclude e owner name t; Engine.relink e owner name t) w = some (r, w')) :
    (w'.held = w.held ∧ w'.depth = w.depth) ∧
      ∀ e', (w'.engine e').bindings = (w.engine e').bindings := by
  let R (w w' : World) : Prop :=
    (w'.held = w.held ∧ w'.depth = w.depth) ∧
      ∀ e', (w'.engine e').bindings = (w.engine e').bindings
  have F : Steady R := by
    constructor
    · exact fun first next =>
        ⟨⟨next.1.1.trans first.1.1, next.1.2.trans first.1.2⟩,
          fun e => (next.2 e).trans (first.2 e)⟩
    · exact fun quiet => ⟨⟨quiet.held, quiet.depth⟩, quiet.still.bindings⟩
  have engine (w : World) (f : Engine → Engine) (same : ∀ g, (f g).bindings = g.bindings) :
      R w (w.modifyEngine e f) := by
    refine ⟨⟨rfl, rfl⟩, fun e' => ?_⟩
    rw [engine_modifyEngine]
    split
    · exact same _
    · rfl
  exact F.relink e owner name t (fun w _ => engine w _ fun _ => rfl)
    (fun _ => ⟨⟨rfl, rfl⟩, fun _ => rfl⟩) (fun _ _ => ⟨⟨rfl, rfl⟩, fun _ => rfl⟩)
    (fun _ _ _ _ => ⟨⟨rfl, rfl⟩, fun _ => rfl⟩)
    (fun w ls => engine w (fun g => {g with links := g.links.insert name ls}) fun _ => rfl)
    w r w' run

/-- What is in progress is not on record. -/
theorem still_progress (w : World) (depth : Nat) (limit : Option Nat) (held : List Handle) :
    w.Still {w with depth := depth, limit := limit, held := held} where
  toSameObservable := .of_eq rfl
  toSameListed := .of_eq rfl
  toSameRecords := .of_eq rfl
  links := rfl
  traced _ := id

/-- Neither is what the host carries off. -/
theorem still_collect (w : World) :
    w.Still {w with log := #[], desk := {w.desk with events := #[]}} :=
  Quiet.still ⟨rfl, id, id, id, Nat.le_refl _⟩

/-- **The ledger is a frame.** -/
theorem frame_kept : Frame World.Kept where
  toSteady := steady_kept
  hold {w w' hs} kept :=
    { ledger := fun ledger =>
        (w'.still_progress w'.depth w'.limit w.held).ledger
          (kept.ledger ((w.still_progress w.depth w.limit _).ledger ledger))
      progress := ⟨rfl, kept.progress.2⟩
      bound := kept.bound }
  limited {w w' n} kept :=
    { ledger := fun ledger =>
        (w'.still_progress w'.depth w.limit w'.held).ledger
          (kept.ledger ((w.still_progress w.depth (some n) w.held).ledger ledger))
      progress := kept.progress
      bound := kept.bound }
  nested {w w'} kept :=
    { ledger := fun ledger =>
        (w'.still_progress (w'.depth - 1) w'.limit w'.held).ledger
          (kept.ledger ((w.still_progress (w.depth + 1) w.limit w.held).ledger ledger))
      progress := ⟨kept.progress.1, by
        show w'.depth - 1 = w.depth
        rw [kept.progress.2]
        rfl⟩
      bound := kept.bound }
  guarded {w w' e name} kept := by
    have up : w.Kept (w.guard e name) := by
      unfold guard
      split
      · exact steady_kept.refl w
      · exact (still_guards e fun g => name :: g.guards).kept ⟨rfl, rfl⟩
    have down : w'.Kept (w.unguard w' e name) := by
      unfold unguard
      split
      · exact steady_kept.refl w'
      · exact (still_guards e fun g => g.guards.erase name).kept ⟨rfl, rfl⟩
    exact (up.trans kept).trans down
  change w c := (still_addObject fun _ h => by cases h).kept ⟨rfl, rfl⟩
  view w o t _ := (still_addObject fun _ h => by cases h).kept ⟨rfl, rfl⟩
  object := newObject_kept
  store w o d name v _ _ _ :=
    (still_modifyDeclared o (fun d => {d with values := d.values.insert name v})
      fun _ => rfl).kept ⟨rfl, rfl⟩
  unset w o d name old _ _ _ := by
    refine (still_modifyDeclared o _ fun d => ?_).kept ⟨rfl, rfl⟩
    unfold Declared.declare
    split <;> rfl
  slot w o key _ :=
    (steady_kept.quiet (w.quiet_addLayer .empty)).trans
      ((still_modifyDeclared o
        (fun d => {d with storage := d.storage.insert key ⟨w.layers.size⟩}) fun _ => rfl).kept
          ⟨rfl, rfl⟩)
  bind := bindAttribute_kept
  registry w := still_addRegistry.kept ⟨rfl, rfl⟩
  observe w r name c := (still_modifyRegistry r _ fun x a l => by
    rw [Registry.appearances_add, if_neg (fun both => by cases both.2), Nat.add_zero]).kept
      ⟨rfl, rfl⟩
  prune w r name xs _ :=
    (still_modifyRegistry r _ fun x a l => x.appearances_prune ..).kept ⟨rfl, rfl⟩
  tell w x change := (still_tell x change).kept ⟨rfl, rfl⟩
  tracer w owner name := (still_addTracer owner name).kept ⟨rfl, rfl⟩
  trace w t o name := (still_modifyTracer t _ fun x => x.record_nodup _).kept ⟨rfl, rfl⟩
  drain w t := (still_modifyTracer t _ fun _ _ => List.nodup_nil).kept ⟨rfl, rfl⟩
  engine w config := (still_addEngine config).kept ⟨rfl, rfl⟩
  addBinding w e name b := kept_addBinding e name b
  clear w e := kept_clear e
  bound kept := kept.bound
  relink w e owner name t bound r w' run := by
    obtain ⟨progress, bindings⟩ := relink_bound owner t run
    refine ⟨fun ledger => ?_, progress, fun found => ?_⟩
    · obtain ⟨w'', _, ends, after, _⟩ := ledger.relink owner t bound
      rw [ends] at run
      cases run
      exact after
    · rw [bindings]
      exact found

end LiveBinding.World
