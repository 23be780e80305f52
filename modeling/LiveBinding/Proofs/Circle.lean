import LiveBinding.Proofs.Endings
import LiveBinding.Proofs.Assignment
import LiveBinding.Proofs.Route

/-! Circles.

Two attributes may each be bound to one more than the other. To evaluate one of them takes a moment,
and a failure would only go to the log. But once both have been evaluated, each is updated when the
other changes, and the update assigns after the body has returned: the limit on nested bodies does
not count it. So an assignment to one of them goes round for ever. -/
namespace LiveBinding

/-- No attribute notices that a notification starts. -/
theorem World.slips_notifying {n : Nat} {w : World} (tethered : w.Tethered) (r : RegistryRef)
    (change : ObjectId) (c : Change) : w.Slips n (w.notifying r change c) := by
  cases listed : (w.registry r).slots.get? c.name with
  | none =>
    rw [w.notifying_of_unheard change listed]
    exact .refl w
  | some xs =>
    rw [w.notifying_of_listed change listed]
    have pruned : w.Slips n (w.modifyRegistry r (·.prune c.name (w.liveObservers xs).contains)) :=
      ⟨slight_prune tethered listed, rfl, rfl⟩
    exact (pruned.trans (.log _ rfl)).trans (.progress _ _ _)

/-- One more than an attribute that is an integer. -/
def oneMore (d : Dependency) : Arguments → Program Value
  | .traced t => do
    match ← Program.request (.loadAttr t (.object d.object) d.name) with
    | .int i => return .int (i + 1)
    | v => return v
  | _ => return .null

/-- Two attributes of an object that are bound to each other, and a world to start from. -/
structure Circle where
  start : World
  object : ObjectId
  engine : EngineRef
  name : Bool → String
  function : Bool → FunctionRef
  key : Bool → ScopeKey

namespace Circle
variable (C : Circle)

def site (b : Bool) : Dependency := ⟨C.object, C.name b⟩

def reader (b : Bool) : Handler := ⟨.tracedRead, C.function b, C.key b⟩

/-! ### What is required -/

structure Sound : Prop where
  reachable : Reachable C.start
  grounded : C.start.Grounded
  watched : C.start.Watched
  /-- Nothing is evaluated yet. -/
  unlinked : C.start.links = #[]
  owned : C.start.engineOf? C.object = some C.engine
  traced : (C.start.engine C.engine).config.traceSubscriptions = true
  limited : 0 < (C.start.engine C.engine).config.maxDepth
  distinct : C.name true ≠ C.name false
  bound : ∀ b, (C.start.engine C.engine).bindings.get? (C.name b) =
    some (Operator.subscribe.bind (C.function b) (C.key b))
  code : ∀ b, ∃ g, C.start.functions[(C.function b).index]? = some g ∧
    ∀ s t, g.code s (.traced t) = oneMore (C.site !b) (.traced t)
  surroundings : ∀ b, (C.start.surroundingsFor? C.object (C.reader b)).isSome
  assignable : ∀ b, C.start.Assignable (C.site b)

/-! ### What stays in order -/

/-- All links are for one of the two attributes and observe the other. -/
structure Inv (w : World) : Prop where
  grows : C.start.Extends w
  ledger : w.Ledger
  linked : ∀ {d r l}, w.registryOf? d.object = some r →
    0 < (w.registry r).appearances d.name (.link l) →
    ∃ b, d = C.site !b ∧ w.links[l.index]? = some ⟨C.engine, C.object, C.name b⟩
  fresh : ∀ {name l r a}, l ∈ (w.engine C.engine).linksOf name →
    (a, .link l) ∉ (w.registry r).forgotten
  depth : w.depth = 0

/-- The latest evaluation of an attribute has gone by the other one. -/
def Consulted (w : World) (b : Bool) : Prop :=
  ∃ v, (w.engine C.engine).latest (C.name b) = some v ∧ v.owner = C.object ∧
    C.site (!b) ∈ v.consulted

/-- The attribute has one value and the other attribute another one. -/
def Shows (w : World) (b : Bool) (i j : Int64) : Prop :=
  w.valueOf? (C.site b) = some (.int i) ∧ w.valueOf? (C.site !b) = some (.int j)

/-- Both attributes have been evaluated. -/
structure Turning (w : World) : Prop extends C.Inv w where
  consulted : ∀ b, C.Consulted w b

variable {C} {w w' : World} {n : Nat} {b : Bool} {i j k : Int64}

theorem site_ne (sound : C.Sound) (b : Bool) : C.site (!b) ≠ C.site b := by
  have names := sound.distinct
  cases b
  · exact fun same => names (congrArg Dependency.name same)
  · exact fun same => names (congrArg Dependency.name same).symm

namespace Inv

theorem step (inv : C.Inv w) (grows : w.Extends w') (still : w.Still w')
    (depth : w'.depth = w.depth) (forgotten : ∀ {name l r a}, l ∈ (w.engine C.engine).linksOf name →
      (a, .link l) ∈ (w'.registry r).forgotten → (a, .link l) ∈ (w.registry r).forgotten) :
    C.Inv w' where
  grows := inv.grows.trans grows
  ledger := still.ledger inv.ledger
  linked found appears := by
    rw [still.registryOf?] at found
    rw [still.appearances] at appears
    rw [still.links]
    exact inv.linked found appears
  fresh held gone := by
    rw [Engine.linksOf, still.linksOf] at held
    exact inv.fresh held (forgotten held gone)
  depth := depth.trans inv.depth

theorem slight (sound : C.Sound) (inv : C.Inv w) (slight : w.Slight n w')
    (depth : w'.depth = w.depth) : C.Inv w' :=
  inv.step slight.grows slight.still depth fun held gone =>
    slight.forgotten ((inv.grows.engineOf? C.object).trans sound.owned) held gone

theorem relinked (inv : C.Inv w) {consulted : List Dependency} {t : TracerRef} {ls : List LinkRef}
    (relinked : w.Relinked w' C.engine (C.name b) ⟨C.object, consulted, w.links.size⟩ t ls)
    (ledger : w'.Ledger) (only : ∀ d ∈ consulted, d = C.site !b) : C.Inv w' where
  grows := inv.grows.trans relinked.grows
  ledger := ledger
  linked found appears := by
    rcases relinked.listed ledger found appears with old | ⟨made, mem, _⟩
    · rw [relinked.linked.registryOf?] at found
      obtain ⟨c, same, made⟩ := inv.linked found old
      exact ⟨c, same, relinked.linked.links made⟩
    · exact ⟨b, only _ mem, made⟩
  fresh := relinked.fresh rfl inv.ledger.tidy ledger inv.fresh
  depth := by
    obtain ⟨_, _, _, _, _, rest⟩ := relinked.rest
    rw [rest]
    exact inv.depth

end Inv

theorem Consulted.still (consulted : C.Consulted w b) (still : w.Still w') : C.Consulted w' b := by
  obtain ⟨v, latest, rest⟩ := consulted
  exact ⟨v, (still.latest _ _).trans latest, rest⟩

theorem Turning.slips (sound : C.Sound) (turning : C.Turning w) (slips : w.Slips n w') :
    C.Turning w' where
  toInv := turning.toInv.slight sound slips.slight slips.depth
  consulted b := (turning.consulted b).still slips.slight.still

theorem Turning.store (turning : C.Turning w) {a : Dependency} (is : w.Attribute a) (v : Value) :
    C.Turning (w.store a v) where
  toInv := by
    have alters := World.alters_store is v
    refine turning.toInv.step alters.grows alters.still rfl fun _ gone => ?_
    rwa [World.registry, alters.registries] at gone
  consulted b := (turning.consulted b).still (w.still_store a v)

theorem Shows.slight (shows : C.Shows w b i j) (slight : w.Slight n w') : C.Shows w' b i j :=
  ⟨(slight.valueOf? _).trans shows.1, (slight.valueOf? _).trans shows.2⟩

theorem Shows.other (shows : C.Shows w b i j) : C.Shows w (!b) j i := by
  refine ⟨shows.2, ?_⟩
  rw [Bool.not_not]
  exact shows.1

/-! ### Evaluating -/

theorem oneMore_leads {d : Dependency} (value : w.valueOf? d = some (.int j)) {t : TracerRef}
    (running : t.index < w.tracers.size) :
    Leads w (fun self => (oneMore d (.traced t)).run self) fun r w' => r = .ok (.int (j + 1)) ∧
      w.Slips t.index w' ∧ ∀ c, c ∈ (w'.tracer t).dependencies ↔
        c ∈ (w.tracer t).dependencies ∨ c = d := by
  have shows : w.Shows d (.int j) := .stored value
  refine Leads.ask (Leads.request (Leads.of_eq (shows.loadAttr t) (Leads.done ⟨rfl, ?_, ?_⟩)))
  · exact ⟨w.slight_record t d, rfl, rfl⟩
  · exact World.mem_dependencies_record running _

/-- The body has been evaluated, and its tracer has recorded the other attribute. -/
theorem readTraced_leads (sound : C.Sound) (inv : C.Inv w)
    (value : w.valueOf? (C.site !b) = some (.int j)) {limit : Nat} (given : w.limit = some limit)
    (room : 0 < limit) :
    Leads w (fun self => (C.reader b).readTraced self C.object (C.name b)) fun r w' =>
      ∃ u, r = .ok (u, ⟨w.tracers.size⟩) ∧ u = .int (j + 1) ∧ w.Slight w.tracers.size w' ∧
        w'.depth = w.depth ∧
          ∀ d, d ∈ (w'.tracer ⟨w.tracers.size⟩).dependencies ↔ d = C.site !b := by
  obtain ⟨g, code, runs⟩ := sound.code b
  obtain ⟨c, found⟩ := Option.isSome_iff_exists.1 (sound.surroundings b)
  let t : TracerRef := ⟨w.tracers.size⟩
  refine Handler.readTraced_leads (x := C.site b) inv.grows rfl code found fun {w₁ s} begun => ?_
  have slips := begun.slips
  let w₂ := w₁.calling (C.function b) (.traced t) s
  have enter : w₁.Slight (t.index + 1) w₂ := w₁.slight_calling (C.function b) _ s
  have value₂ : w₂.valueOf? (C.site !b) = some (.int j) := by
    rw [enter.valueOf?, slips.slight.valueOf?, value]
  have running : t.index < w₂.tracers.size := Nat.lt_of_lt_of_le begun.inside.running enter.more
  have shallow : w₁.depth < limit := by rw [slips.depth, inv.depth]; exact room
  refine callFunction_leads (begun.limit.trans given) shallow ?_
  refine Leads.congr (b := fun self => (oneMore (C.site !b) (.traced t)).run self) (fun self => ?_)
    ((oneMore_leads value₂ running).mono ?_)
  · show (w₁.code (C.function b) s (.traced t)).run self w₂ = _
    rw [World.code, (inv.grows.trans slips.slight.grows).functions code]
    exact congrArg (fun p => p.run self w₂) (runs s t)
  rintro r w₃ ⟨rfl, ran, recorded⟩
  have leave : w₃.Slight (t.index + 1) {w₃ with depth := w₃.depth - 1, held := w.held} :=
    w₃.slight_progress _ (w₃.depth - 1) w₃.limit w.held
  refine ⟨_, rfl, rfl, ?_, ?_, fun d => ?_⟩
  · exact slips.slight.trans ((enter.mono (Nat.le_succ _)).trans
      (ran.slight.trans (leave.mono (Nat.le_succ _))))
  · show w₃.depth - 1 = w.depth
    rw [ran.depth]
    exact slips.depth
  · rw [leave.tracers t (Nat.lt_succ_self _), recorded, enter.tracers t (Nat.lt_succ_self _),
      begun.blank]
    simp

/-- An evaluation ends: it gives one more than the other attribute and links to that. -/
theorem read_leads (sound : C.Sound) (inv : C.Inv w)
    (value : w.valueOf? (C.site !b) = some (.int j)) :
    Leads w (fun self => Engine.read self C.engine C.object (C.name b)) fun r w' =>
      ∃ u, r = .ok (some u) ∧ u = .int (j + 1) ∧ C.Inv w' ∧ (∀ d, w'.valueOf? d = w.valueOf? d) ∧
        C.Consulted w' b ∧ (C.Consulted w (!b) → C.Consulted w' !b) := by
  let limit := (w.engine C.engine).config.maxDepth
  have room : 0 < limit := by
    show 0 < (w.engine C.engine).config.maxDepth
    rw [inv.grows.config]
    exact sound.limited
  have binding : (w.engine C.engine).bindings.get? (C.name b) =
      some (Operator.subscribe.bind (C.function b) (C.key b)) := by
    rw [inv.grows.bindings]
    exact sound.bound b
  let w₁ := {w with limit := some limit}
  have enter : w.Slips w.tracers.size w₁ := .progress w (some limit) w.held
  have inv₁ := inv.slight sound enter.slight enter.depth
  refine Engine.read_leads (x := C.site b) (h := C.reader b) (by
      show ((w.engine C.engine).bindings.get? (C.name b)).bind Binding.read = _
      rw [binding]
      rfl) rfl
    ((readTraced_leads sound inv₁ ((enter.slight.valueOf? _).trans value)
      (show w₁.limit = some limit from rfl) room).mono ?_)
  rintro r w₂ ⟨_, rfl, rfl, evaluated, depth, recorded⟩
  have inv₂ := inv₁.slight sound evaluated depth
  have bound : (w₂.engine C.engine).bindings.contains (C.name b) = true := by
    rw [inv₂.grows.bindings, Dict.contains, sound.bound]
    rfl
  obtain ⟨w₃, ls, run, ledger, relinked⟩ := inv₂.ledger.relink C.object ⟨w.tracers.size⟩ bound
  have inv₃ := inv₂.relinked relinked ledger fun d mem => (recorded d).1 (List.mem_filter.1 mem).1
  have leave : w₃.Slips 0 {w₃ with limit := w.limit} := .progress w₃ w.limit w₃.held
  refine ⟨_, _, rfl, w₃, run, rfl, inv₃.slight sound leave.slight leave.depth, fun d => ?_, ?_, ?_⟩
  · rw [leave.slight.valueOf?, relinked.valueOf?, evaluated.valueOf?, enter.slight.valueOf?]
  · have latest := relinked.latest (C.name b)
    rw [if_pos rfl] at latest
    refine Consulted.still ⟨_, latest, rfl, ?_⟩ leave.slight.still
    obtain ⟨y, known, _⟩ := ((sound.assignable !b).mono inv₂.grows).attribute
    refine List.mem_filter.2 ⟨(recorded _).2 rfl, ?_⟩
    rw [← World.entity?_isSome, (w₂.declared?_eq_some).1 known]
    rfl
  · intro consulted
    have there := (consulted.still enter.slight.still).still evaluated.still
    obtain ⟨v, latest, rest⟩ := there
    refine Consulted.still ⟨v, ?_, rest⟩ leave.slight.still
    rw [relinked.latest, if_neg fun same => site_ne sound b ?_, latest]
    rw [site, site, same]

/-! ### Going round -/

/-- An update of an attribute that is not one more than the other does not end within so many nested
steps. -/
def Endless (C : Circle) (n : Nat) : Prop :=
  ∀ ⦃w b i j⦄, C.Turning w → C.Shows w b i j → i ≠ j + 1 →
    ¬ (Engine.update (perform n) C.engine C.object (C.name b) w).isSome

/-- Observers of an attribute are told of a change only if no link that lets the other attribute
be updated is among them. -/
theorem Endless.not_told (sound : C.Sound) (endless : C.Endless n) {change : ObjectId}
    {xs : List Observer} {last : World} (told : Told (perform n) change xs w last)
    (turning : C.Turning w) (known : ∃ c, w.change? change = some c) (shows : C.Shows w b i j)
    (differ : i ≠ j + 1)
    (links : ∀ l, .link l ∈ xs → w.links[l.index]? = some ⟨C.engine, C.object, C.name b⟩)
    (l : LinkRef) : .link l ∉ xs := by
  obtain ⟨c, known⟩ := known
  induction told with
  | none w => exact List.not_mem_nil
  | @next x rest w w₁ w₂ first others ih =>
    cases x with
    | watcher x =>
      obtain ⟨r, v, ends, _, slips⟩ := World.watcher_leads (n := 0)
        (sound.watched.mono turning.grows) change x
      have more (m : Nat) (fewer : n ≤ m) :=
        (World.frame_persists.performing_le fewer).inform World.frame_persists change (.watcher x)
          w trivial
      obtain ⟨_, rfl⟩ := Ends.of_run (a := fun self => inform self change (.watcher x)) ends more
        first
      intro mem
      exact ih (turning.slips sound slips) (shows.slight slips.slight)
        (fun l mem => slips.slight.grows.links (links l (List.mem_cons_of_mem _ mem)))
        (slips.slight.grows.change? known) (List.mem_of_ne_of_mem (by simp) mem)
    | link x =>
      have made := links x List.mem_cons_self
      have grounded := sound.grounded.mono turning.grows
      have engine := (turning.grows.engineOf? C.object).trans sound.owned
      obtain ⟨d, there, _⟩ := Option.bind_eq_some_iff.1 engine
      have ends := (isSome_inform made known (grounded.isLive_engine engine)
        (grounded.isLive there)).1 (by rw [first]; rfl)
      have slips : w.Slips 0 ((w.tell (.link x) change).addEntry
          (.dependencyChanged C.object (C.name b) c.owner c.name)) :=
        (World.Slips.tell w _ change).trans (.log _ rfl)
      exact absurd ends (endless (turning.slips sound slips) (shows.slight slips.slight) differ)

/-- A link of the other attribute observes an attribute. -/
theorem Turning.exists_link (sound : C.Sound) (turning : C.Turning w) (b : Bool) :
    ∃ l, .link l ∈ w.liveObservers (w.observersOf (C.site b)) := by
  obtain ⟨v, latest, owner, mem⟩ := turning.consulted !b
  rw [Bool.not_not] at mem
  have traced : (w.engine C.engine).config.traceSubscriptions = true := by
    rw [turning.grows.config]
    exact sound.traced
  have other : ¬((C.site b).object = v.owner ∧ (C.site b).name = C.name !b) := by
    rintro ⟨_, names⟩
    exact site_ne sound b (by rw [site, ← names]; rfl)
  obtain ⟨l, held, observes⟩ := turning.ledger.exists_link latest traced mem
    ((sound.assignable b).mono turning.grows).attribute other turning.fresh
  have tethered := (sound.grounded.mono turning.grows).tethered
  have engine := (turning.grows.engineOf? C.object).trans sound.owned
  exact ⟨l, List.mem_filter.2 ⟨observes, tethered engine held⟩⟩

/-- Whatever else is assigned to an attribute, the other one has to be updated. -/
theorem Endless.not_assign (sound : C.Sound) (endless : C.Endless n) (turning : C.Turning w)
    (shows : C.Shows w b i j) (changes : i ≠ k) (differ : j ≠ k + 1) :
    ¬ (assign (perform n) C.object (C.name b) (.int k) w).isSome := by
  intro ends
  obtain ⟨d, known, free, has⟩ := (sound.assignable b).mono turning.grows
  have allowed : (Move.assign (.int k)).Allowed d (C.name b) :=
    ⟨has, fun constant => by
      rw [show d.isConstant (C.name b) = false from free] at constant
      cases constant⟩
  let c : Change := ⟨.update, C.object, C.name b, .int i, .int k⟩
  let u := (w.hold [.object C.object]).store (C.site b) (.int k)
  have sends : (Move.assign (.int k)).sends C.object (C.name b) w = some (c, u) := by
    have stored : w.stored? C.object (C.name b) = some (.int i) := shows.1
    simp only [Move.sends, stored, World.equal_int, changes, decide_false, Bool.false_eq_true,
      if_false]
    rfl
  have held : w.Slips 0 (w.hold [.object C.object]) := .progress w w.limit _
  have is : (w.hold [.object C.object]).Attribute (C.site b) := ⟨d, known, has⟩
  have stored : C.Shows u (!b) j k := by
    constructor
    · exact (World.valueOf?_store is _ _).trans ((if_neg (site_ne sound b).symm).trans shows.2)
    · rw [Bool.not_not]
      exact (World.valueOf?_store is _ _).trans (if_pos rfl)
  have told : u.Slips 0 (u.announce c) := ⟨(u.slight_addChange c).trans
    (World.slight_progress 0 _ _ _ _), rfl, rfl⟩
  have turning₁ := ((turning.slips sound held).store is (.int k)).slips sound told
  have registry : u.registryOf? C.object = some d.registry := by
    refine ((World.extends_store is (.int k)).registryOf? C.object).trans ?_
    exact congrArg (Option.map Declared.registry) known
  obtain ⟨last, delivered, _⟩ := (isSome_move known allowed).1 ends c u sends d.registry registry
  have slips : (u.announce c).Slips 0 ((u.announce c).notifying d.registry ⟨u.objects.size⟩ c) :=
    World.slips_notifying (sound.grounded.mono turning₁.grows).tethered d.registry _ c
  obtain ⟨l, mem⟩ := turning₁.exists_link sound b
  have observers : (u.announce c).observersOf (C.site b) =
      ((u.announce c).registry d.registry).observers (C.name b) := by
    rw [World.observersOf, show (C.site b).object = C.object from rfl,
      (u.persists_announce c).registryOf? registry]
    rfl
  refine endless.not_told sound delivered (turning₁.slips sound slips)
    ⟨c, slips.slight.grows.change? (u.change?_announce c)⟩
    ((stored.slight told.slight).slight slips.slight) differ (fun l' mem' => ?_) l
    (observers ▸ mem)
  refine slips.slight.grows.links ?_
  obtain ⟨s, found, appears⟩ := World.exists_of_observes
    (observers ▸ (List.mem_filter.1 mem').1)
  obtain ⟨b', same, made⟩ := turning₁.linked found appears
  obtain rfl : b' = !b := Bool.eq_not.2 fun own => site_ne sound b (own ▸ same).symm
  exact made

/-- To assign one more than the other attribute never makes it so. -/
theorem ne_add_two (j : Int64) : j ≠ j + 1 + 1 := by
  grind

/-- An update that ends has had its assignment made. -/
theorem exists_of_update (sound : C.Sound) (turning : C.Turning w) (shows : C.Shows w b i j)
    (ends : (Engine.update (perform n) C.engine C.object (C.name b) w).isSome) :
    ∃ u, C.Turning u ∧ C.Shows u b i j ∧
      (perform n Unit (.setAttr (.object C.object) (C.name b) (.int (j + 1))) u).isSome := by
  obtain ⟨reads, assigned⟩ := isSome_update.1 ends
  let w₁ := w.hold [.engine C.engine, .object C.object]
  have enter : w.Slips 0 w₁ := .progress w w.limit _
  have shows₁ := shows.slight enter.slight
  obtain ⟨r, w₂, read, _, rfl, rfl, inv, same, consulted, others⟩ :=
    read_leads sound (turning.slips sound enter).toInv shows₁.2
  obtain ⟨⟨s, v⟩, run⟩ := Option.isSome_iff_exists.1 (isSome_read.2 reads)
  have more (m : Nat) (fewer : n ≤ m) :=
    (World.frame_persists.performing_le fewer).readBinding C.engine C.object (C.name b) w₁ trivial
  obtain ⟨rfl, rfl⟩ :=
    Ends.of_run (a := fun self => Engine.read self C.engine C.object (C.name b)) read more run
  have turning₂ : C.Turning v := by
    refine ⟨inv, fun c => ?_⟩
    by_cases here : c = b
    · exact here ▸ consulted
    · obtain rfl : c = !b := Bool.eq_not.2 here
      exact others ((turning.slips sound enter).consulted _)
  have shows₂ : C.Shows v b i j := ⟨(same _).trans shows₁.1, (same _).trans shows₁.2⟩
  have slips : v.Slips 0 ((v.addEntry (.bindingUpdated C.object (C.name b)
      (v.text (.int (j + 1))))).guard C.engine (C.name b)) :=
    (World.Slips.log v rfl).trans (.guard _ _ _)
  exact ⟨_, turning₂.slips sound slips, shows₂.slight slips.slight, assigned _ _ run⟩

/-- **Updates go round for ever.** However many nested steps there are, they do not suffice. -/
theorem endless (sound : C.Sound) (n : Nat) : C.Endless n := by
  induction n with
  | zero =>
    intro w b i j turning shows _ ends
    obtain ⟨u, _, _, assigned⟩ := exists_of_update sound turning shows ends
    cases assigned
  | succ n ih =>
    intro w b i j turning shows differ ends
    obtain ⟨u, turning', shows', assigned⟩ := exists_of_update sound turning shows ends
    exact ih.not_assign sound turning' shows' differ (ne_add_two j) assigned

/-- Once both attributes have been evaluated, to assign something to one of them that does not agree
with the other does not end. -/
theorem Turning.assign_none (sound : C.Sound) (turning : C.Turning w) (shows : C.Shows w b i j)
    (changes : i ≠ k) (differ : j ≠ k + 1) (n : Nat) :
    perform n Unit (.setAttr (.object C.object) (C.name b) (.int k)) w = none := by
  cases n with
  | zero => rfl
  | succ n =>
    rw [← Option.not_isSome_iff_eq_none]
    exact (endless sound n).not_assign sound turning shows changes differ

/-! ### The first evaluations -/

theorem Sound.inv (sound : C.Sound) : C.Inv C.start := by
  have ledger := (World.settled_of_reachable sound.reachable).ledger
  exact {
    grows := .refl _
    ledger := ledger
    linked := fun _ appears => absurd appears (ledger.not_appears sound.unlinked)
    fresh := fun held => absurd held (ledger.not_mem_linksOf sound.unlinked)
    depth := (World.idle_of_reachable sound.reachable).depth }

/-- Reads both attributes. -/
def readBoth (C : Circle) : Program Unit := do
  let _ ← Program.request (.readBinding C.engine C.object (C.name true))
  let _ ← Program.request (.readBinding C.engine C.object (C.name false))

theorem readBinding_leads (sound : C.Sound) (inv : C.Inv w) (shows : C.Shows w b i j) :
    Leads w (fun self => self _ (.readBinding C.engine C.object (C.name b))) fun r w' =>
      ∃ u, r = .ok (some u) ∧ u = .int (j + 1) ∧ C.Inv w' ∧ C.Shows w' b i j ∧ C.Consulted w' b ∧
        (C.Consulted w (!b) → C.Consulted w' !b) := by
  have enter : w.Slips 0 {w with held := [.engine C.engine, .object C.object] ++ w.held} :=
    .progress w w.limit _
  have shows₁ := shows.slight enter.slight
  refine Leads.request (Leads.holding ((read_leads sound
    (inv.slight sound enter.slight enter.depth) shows₁.2).mono ?_))
  rintro r w₁ ⟨_, rfl, rfl, inv₁, same, consulted, others⟩
  have leave : w₁.Slips 0 {w₁ with held := w.held} := .progress w₁ w₁.limit _
  have shows₂ : C.Shows w₁ b i j := ⟨(same _).trans shows₁.1, (same _).trans shows₁.2⟩
  exact ⟨_, rfl, rfl, inv₁.slight sound leave.slight leave.depth, shows₂.slight leave.slight,
    consulted.still leave.slight.still, fun before =>
      (others (before.still enter.slight.still)).still leave.slight.still⟩

/-- A circle turns once both attributes have been read. -/
theorem readBoth_leads (sound : C.Sound) (shows : C.Shows C.start true i j) :
    Leads C.start (fun self => C.readBoth.run self) fun r w' =>
      r = .ok () ∧ C.Turning w' ∧ C.Shows w' true i j := by
  refine Leads.ask ((readBinding_leads sound sound.inv shows).mono ?_)
  rintro r w₁ ⟨_, rfl, rfl, inv₁, shows₁, first, _⟩
  refine Leads.ask ((readBinding_leads sound inv₁ shows₁.other).mono ?_)
  rintro r w₂ ⟨_, rfl, rfl, inv₂, shows₂, second, others⟩
  refine Leads.done ⟨rfl, ⟨inv₂, ?_⟩, shows₂.other⟩
  intro b
  cases b
  · exact second
  · exact others first

end Circle

/-! ### A circle under the smallest limit -/

/-- An object, of which the host keeps hold, and whatever else there is. -/
def circleWorld (functions : Array Function) (bound : List String) (engine : Option Engine) :
    World :=
  { World.initial #[] with
    objects := #[.declared
      { typeName := "Item", parent := none, members := bound, constants := []
        values := .ofList [("a", .int 0), ("b", .int 0)], storage := .empty, registry := ⟨0⟩
        config := some {policy := .logAndContinue, maxDepth := 1}
        engine := engine.map fun _ => ⟨0⟩ }]
    functions := functions
    registries := #[.empty]
    engines := engine.toArray
    desk := Desk.initial.keep "item" (.object ⟨0⟩) }

/-- `a` is one more than `b`, and `b` one more than `a`. -/
def followers : Array Function :=
  #[⟨"a", ⟨.empty, .empty⟩, fun _ => oneMore ⟨⟨0⟩, "b"⟩⟩,
    ⟨"b", ⟨.empty, .empty⟩, fun _ => oneMore ⟨⟨0⟩, "a"⟩⟩]

def circle : Circle where
  start := circleWorld followers ["a", "b"] (some
    (((Engine.start {policy := .logAndContinue, maxDepth := 1}).addBinding "a"
      (Operator.subscribe.bind ⟨0⟩ (.given 0))).addBinding "b"
        (Operator.subscribe.bind ⟨1⟩ (.given 1))))
  object := ⟨0⟩
  engine := ⟨0⟩
  name b := if b then "a" else "b"
  function b := if b then ⟨0⟩ else ⟨1⟩
  key b := if b then .given 0 else .given 1

namespace circle

theorem reachable : Reachable circle.start := by
  have made : Reachable {circleWorld #[] [] none with desk := .initial} :=
    (Reachable.start #[]).ask (n := 1) (q := .newObject
      { typeName := "Item", parent := none, attributes := .ofList [("a", .int 0), ("b", .int 0)]
        members := [], constants := .empty, storage := .empty
        config := some {policy := .logAndContinue, maxDepth := 1} }) rfl
  have kept : Reachable (circleWorld #[] [] none) :=
    made.ask (n := 1) (q := .keep "item" (.object ⟨0⟩)) rfl
  have first : Reachable (circleWorld (followers.take 1) [] none) :=
    kept.ask (n := 1) (q := .newFunction "a" ⟨.empty, .empty⟩ fun _ => oneMore ⟨⟨0⟩, "b"⟩) rfl
  have second : Reachable (circleWorld followers [] none) :=
    first.ask (n := 1) (q := .newFunction "b" ⟨.empty, .empty⟩ fun _ => oneMore ⟨⟨0⟩, "a"⟩) rfl
  have bound : Reachable (circleWorld followers ["a"] (some
      ((Engine.start {policy := .logAndContinue, maxDepth := 1}).addBinding "a"
        (Operator.subscribe.bind ⟨0⟩ (.given 0))))) :=
    second.ask (n := 1) (q := .bind ⟨0⟩ "a" .subscribe ⟨0⟩ (.given 0)) rfl
  exact bound.ask (n := 1) (q := .bind ⟨0⟩ "b" .subscribe ⟨1⟩ (.given 1)) rfl

theorem grounded : circle.start.Grounded where
  kept {o d} here := by
    obtain ⟨_ | n⟩ := o
    · exact List.mem_singleton.2 rfl
    · cases here
  parents {o d p} here parent := by
    obtain ⟨_ | n⟩ := o
    · cases here
      cases parent
    · cases here

theorem sound : circle.Sound where
  reachable := reachable
  grounded := grounded
  watched := nofun
  unlinked := rfl
  owned := rfl
  traced := rfl
  limited := by decide
  distinct := by decide
  bound b := by cases b <;> rfl
  code b := by
    cases b
    · exact ⟨_, rfl, fun _ _ => rfl⟩
    · exact ⟨_, rfl, fun _ _ => rfl⟩
  surroundings b := by cases b <;> rfl
  assignable b := by
    cases b
    · exact ⟨_, rfl, rfl, rfl⟩
    · exact ⟨_, rfl, rfl, rfl⟩

/-- The engine logs failures and goes on, and neither attribute is a constant. Both bodies end
whenever they are run. Yet once they have been run, assigning 5 to `a` does not end, although no
more than one body may be nested. -/
theorem goes_round : ∃ w, Ends (fun self => circle.readBoth.run self) circle.start (.ok ()) w ∧
    w.engineOf? ⟨0⟩ = some ⟨0⟩ ∧
    (w.engine ⟨0⟩).config = {policy := .logAndContinue, maxDepth := 1} ∧
    w.Assignable ⟨⟨0⟩, "a"⟩ ∧ w.Assignable ⟨⟨0⟩, "b"⟩ ∧
    (∀ v b i j, circle.Inv v → circle.Shows v b i j → ∃ x v',
      Ends (fun self => Engine.read self ⟨0⟩ ⟨0⟩ (circle.name b)) v (.ok (some x)) v') ∧
    ∀ n, perform n Unit (.setAttr (.object ⟨0⟩) "a" (.int 5)) w = none := by
  have shows : circle.Shows circle.start true 0 0 := ⟨rfl, rfl⟩
  obtain ⟨_, w, ends, rfl, turning, shows'⟩ := Circle.readBoth_leads sound shows
  refine ⟨w, ends, turning.grows.engineOf? ⟨0⟩, turning.grows.config ⟨0⟩,
    (sound.assignable true).mono turning.grows, (sound.assignable false).mono turning.grows, ?_, ?_⟩
  · intro v b i j inv shows
    obtain ⟨_, v', ends, x, rfl, _⟩ := Circle.read_leads sound inv shows.2
    exact ⟨x, v', ends⟩
  · exact turning.assign_none sound shows' (by decide) (by decide)

end circle

end LiveBinding
