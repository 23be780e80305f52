import LiveBinding.Proofs.Attendance
import LiveBinding.Proofs.Checks

/-! Constants and declarations that last.

What has become an attribute of an object stays one, and a constant keeps its value. Nobody gets
around this: whatever a request does is made of elementary changes, and each of them leaves
attributes attributes and constants what they are. An attribute that is a constant can be
emitted, but it is never assigned and never cleared, so the only changes of it that are made
known are events. -/
namespace LiveBinding

namespace World
variable {w w' : World} {a : Dependency}

/-- The attribute is a constant of its object. -/
def Constant (w : World) (a : Dependency) : Prop :=
  ∃ d, w.declared? a.object = some d ∧ d.isConstant a.name = true

theorem Constant.of_objects (is : w.Constant a) (same : w'.objects = w.objects) :
    w'.Constant a := by
  obtain ⟨d, known, constant⟩ := is
  exact ⟨d, by simpa only [declared?, entity?, same] using known, constant⟩

theorem Standing.constant (standing : w.Standing w') (is : w.Constant a) : w'.Constant a := by
  obtain ⟨d, known, constant⟩ := is
  obtain ⟨d', there, constants, _⟩ := standing.declared known
  exact ⟨d', there, by rwa [Declared.isConstant, constants]⟩

theorem hasAttribute_of_declared {o : ObjectId} {d : Declared} (known : w.declared? o = some d)
    (name : String) : w.hasAttribute o name = d.hasAttribute name := by
  rw [hasAttribute, hasWithin_of_declared known, decide_eq_true (Nat.succ_pos _), Bool.true_and]

/-- What is an attribute of a declared object stays one. -/
theorem Standing.hasAttribute (standing : w.Standing w') {o : ObjectId} {d : Declared}
    {name : String} (known : w.declared? o = some d) (has : w.hasAttribute o name = true) :
    w'.hasAttribute o name = true := by
  obtain ⟨d', there, _, kept⟩ := standing.declared known
  rw [hasAttribute_of_declared known] at has
  rw [hasAttribute_of_declared there]
  exact kept name has

/-! ### Values of constants -/

/-- Objects have the attributes and the constants that they had, and the constants their values. -/
structure Firm (w w' : World) : Prop extends w.Standing w' where
  constants : ∀ {a}, w.Constant a → w'.valueOf? a = w.valueOf? a

theorem Firm.trans {w₁ w₂ w₃ : World} (first : w₁.Firm w₂) (next : w₂.Firm w₃) : w₁.Firm w₃ where
  toStanding := first.toStanding.trans next.toStanding
  constants is := (next.constants (first.constant is)).trans (first.constants is)

/-- Only objects and engines matter. -/
theorem Firm.still (objects : w'.objects = w.objects) (engines : w'.engines = w.engines) :
    w.Firm w' where
  toStanding := .still objects engines
  constants _ := valueOf?_of_objects objects _

theorem Firm.steady : Steady World.Firm where
  trans := .trans
  quiet quiet := .still quiet.objects quiet.engines

theorem Firm.guard (w : World) (e : EngineRef) (name : String) : w.Firm (w.guard e name) where
  toStanding := .guard e name
  constants _ := valueOf?_of_objects (w.objects_guard e name) _

/-- What requests leave as it was, of objects with their constants and of engines. -/
structure Stable (w w' : World) : Prop extends w.Sustains w' where
  constants : ∀ {a}, w.Constant a → w'.valueOf? a = w.valueOf? a

theorem Stable.firm (stable : w.Stable w') : w.Firm w' := ⟨stable.toStanding, stable.constants⟩

theorem Sustains.stable (sustains : w.Sustains w') (same : w'.objects = w.objects) : w.Stable w' :=
  ⟨sustains, fun _ => valueOf?_of_objects same _⟩

theorem valueOf?_addObject (is : w.Constant a) (x : Entity) :
    (w.addObject x).1.valueOf? a = w.valueOf? a := by
  obtain ⟨d, known, _⟩ := is
  rw [valueOf?, valueOf?, stored?, stored?, declared?_addObject, if_neg]
  intro last
  rw [w.declared?_of_size_le (Nat.le_of_eq last.symm)] at known
  cases known

/-- Where no value of a constant changes. -/
theorem valueOf?_modifyDeclared (is : w.Constant a) (o : ObjectId) (f : Declared → Declared)
    (kept : ∀ d, w.declared? o = some d → d.isConstant a.name = true →
      (f d).values.get? a.name = d.values.get? a.name) :
    (w.modifyDeclared o f).valueOf? a = w.valueOf? a := by
  obtain ⟨d, known, constant⟩ := is
  rw [valueOf?, valueOf?, stored?, stored?, declared?_modifyDeclared]
  split
  · next same =>
    rw [known]
    exact kept d (same ▸ known) constant
  · rfl

/-- What is not a constant has another name than a constant of the same object. -/
theorem ne_of_isConstant {o : ObjectId} {d d' : Declared} {name : String}
    (known : w.declared? o = some d) (free : d.isConstant name = false)
    (known' : w.declared? o = some d') (constant : d'.isConstant a.name = true) :
    name ≠ a.name := by
  rintro rfl
  rw [known] at known'
  cases known'
  rw [free] at constant
  cases constant

theorem frame_stable : Frame World.Stable where
  trans first next :=
    ⟨frame_sustains.trans first.toSustains next.toSustains, (first.firm.trans next.firm).constants⟩
  quiet quiet := (frame_sustains.quiet quiet).stable quiet.objects
  hold inside := ⟨frame_sustains.hold inside.toSustains, inside.constants⟩
  limited inside := ⟨frame_sustains.limited inside.toSustains, inside.constants⟩
  nested inside := ⟨frame_sustains.nested inside.toSustains, inside.constants⟩
  guarded {w w' e name} inside := ⟨frame_sustains.guarded inside.toSustains, fun {a} is => by
    rw [valueOf?_of_objects (w.objects_unguard w' e name),
      inside.constants (is.of_objects (w.objects_guard e name)),
      valueOf?_of_objects (w.objects_guard e name)]⟩
  change w c := ⟨frame_sustains.change w c, fun is => valueOf?_addObject is _⟩
  view w o t there := ⟨frame_sustains.view w o t there, fun is => valueOf?_addObject is _⟩
  object b w r w' run := by
    have built := Firm.steady.newObject b (fun _ => .still rfl rfl)
      (fun _ d => ⟨.addObject _, fun is => valueOf?_addObject is _⟩) w r w' run
    exact ⟨frame_sustains.object b w r w' run, built.constants⟩
  store w o d name v known free has := by
    refine ⟨frame_sustains.store w o d name v known free has, fun is => ?_⟩
    refine valueOf?_modifyDeclared is o _ fun d' known' constant => ?_
    exact (Dict.get?_insert ..).trans (if_neg (ne_of_isConstant known free known' constant))
  unset w o d name old known free stored := by
    refine ⟨frame_sustains.unset w o d name old known free stored, fun is => ?_⟩
    refine valueOf?_modifyDeclared is o _ fun d' known' constant => ?_
    obtain ⟨_, same, _⟩ := Declared.declare_eq {d' with values := d'.values.erase name} name
    rw [same]
    exact (Dict.get?_erase ..).trans (if_neg (ne_of_isConstant known free known' constant))
  slot w o key free :=
    ⟨frame_sustains.slot w o key free, fun is => valueOf?_modifyDeclared is o _ fun _ _ _ => rfl⟩
  bind o name op f key w r w' run := by
    have declares (w : World) : w.Firm (w.modifyDeclared o (·.declare name)) := by
      refine ⟨.declare o name, fun is => valueOf?_modifyDeclared is o _ fun d _ _ => ?_⟩
      obtain ⟨_, same, _⟩ := d.declare_eq name
      rw [same]
    have enlists (w : World) (e : EngineRef) :
        w.Firm (w.modifyDeclared o fun d => {d with engine := some e}) :=
      ⟨.modifyDeclared o _ fun _ _ => ⟨rfl, fun _ => id⟩,
        fun is => valueOf?_modifyDeclared is o _ fun _ _ _ => rfl⟩
    have bound := Firm.steady.bindAttribute o name op f key declares
      (fun _ c => ⟨.addEngine c, fun _ => rfl⟩) enlists
      (fun _ e => ⟨.modifyEngine e _ fun _ => rfl, fun _ => rfl⟩) w r w' run
    exact ⟨frame_sustains.bind o name op f key w r w' run, bound.constants⟩
  registry w := (frame_sustains.registry w).stable rfl
  observe w r name c := (frame_sustains.observe w r name c).stable rfl
  prune w r name xs found := (frame_sustains.prune w r name xs found).stable rfl
  tell w x change := (frame_sustains.tell w x change).stable rfl
  tracer w owner name := (frame_sustains.tracer w owner name).stable rfl
  trace w t o name := (frame_sustains.trace w t o name).stable rfl
  drain w t := (frame_sustains.drain w t).stable rfl
  engine w config := (frame_sustains.engine w config).stable rfl
  addBinding w e name b := (frame_sustains.addBinding w e name b).stable rfl
  clear w e := (frame_sustains.clear w e).stable rfl
  bound stable := frame_sustains.bound stable.toSustains
  relink w e owner name t bound r w' run := by
    have F : Steady fun w w' : World => w'.objects = w.objects :=
      ⟨fun first next => next.trans first, fun quiet => quiet.objects⟩
    exact (frame_sustains.relink w e owner name t bound r w' run).stable
      (F.relink e owner name t (fun _ _ => rfl) (fun _ => rfl) (fun _ _ => rfl)
        (fun _ _ _ _ => rfl) (fun _ _ => rfl) w r w' run)

/-! ### Changes of a constant -/

/-- The changes of an attribute that have been added are events. -/
structure Eventful (a : Dependency) (w w' : World) : Prop extends w.Sustains w' where
  events : ∃ cs, w'.changes a = w.changes a ++ cs ∧ ∀ c ∈ cs, c.kind = .event

theorem Sustains.eventful (sustains : w.Sustains w') (same : w'.changes a = w.changes a) :
    Eventful a w w' :=
  ⟨sustains, [], by rw [same, List.append_nil], fun _ mem => absurd mem List.not_mem_nil⟩

/-- What adds no change of an attribute. -/
theorem steady_changes (a : Dependency) : Steady fun w w' : World => w'.changes a = w.changes a :=
  ⟨fun first next => next.trans first, fun quiet => changes_of_objects quiet.objects a⟩

theorem changes_addObject_of_none (w : World) {x : Entity} (none : x.change? = none)
    (a : Dependency) : (w.addObject x).1.changes a = w.changes a := by
  rw [changes_addObject, none]
  exact List.append_nil _

theorem Eventful.change {c : Change} (event : c.About a → c.kind = .event) :
    Eventful a w (w.addObject (.change c)).1 where
  toSustains := frame_sustains.change w c
  events := by
    refine ⟨_, changes_addObject w _ a, fun c' mem => ?_⟩
    obtain ⟨same, about⟩ := Option.filter_eq_some_iff.1 (Option.mem_toList.1 mem)
    cases same
    exact event (by simpa using about)

theorem Eventful.guarded {e : EngineRef} {name : String} (inside : Eventful a (w.guard e name) w') :
    Eventful a w (w.unguard w' e name) where
  toSustains := frame_sustains.guarded inside.toSustains
  events := by
    have up := changes_of_objects (w.objects_guard e name) a
    have down := changes_of_objects (w.objects_unguard w' e name) a
    rw [down, ← up]
    exact inside.events

theorem eventful_border (a : Dependency) : Border (Eventful a) where
  trans first next :=
    { toSustains := frame_sustains.trans first.toSustains next.toSustains
      events := by
        obtain ⟨cs, same, events⟩ := first.events
        obtain ⟨cs', same', events'⟩ := next.events
        refine ⟨cs ++ cs', by rw [same', same, List.append_assoc], fun c mem => ?_⟩
        exact (List.mem_append.1 mem).elim (events c) (events' c) }
  quiet quiet := (frame_sustains.quiet quiet).eventful ((steady_changes a).quiet quiet)
  hold inside := ⟨frame_sustains.hold inside.toSustains, inside.events⟩
  limited inside := ⟨frame_sustains.limited inside.toSustains, inside.events⟩
  nested inside := ⟨frame_sustains.nested inside.toSustains, inside.events⟩
  view w o t there := (frame_sustains.view w o t there).eventful (w.changes_addObject_of_none rfl a)
  object b w r w' run := (frame_sustains.object b w r w' run).eventful
    ((steady_changes a).newObject b (fun _ => rfl) (fun w _ => w.changes_addObject_of_none rfl a)
      w r w' run)
  slot w o key free := (frame_sustains.slot w o key free).eventful (changes_modifyDeclared w o _ a)
  registry w := (frame_sustains.registry w).eventful rfl
  prune w r name xs found := (frame_sustains.prune w r name xs found).eventful rfl
  tracer w owner name := (frame_sustains.tracer w owner name).eventful rfl
  trace w t o name := (frame_sustains.trace w t o name).eventful rfl
  drain w t := (frame_sustains.drain w t).eventful rfl
  engine w config := (frame_sustains.engine w config).eventful rfl
  clear w e := (frame_sustains.clear w e).eventful rfl
  bound inside := frame_sustains.bound inside.toSustains
  relink w e owner name t bound r w' run :=
    (frame_sustains.relink w e owner name t bound r w' run).eventful
      ((steady_changes a).relink e owner name t (fun _ _ => rfl) (fun _ => rfl) (fun _ _ => rfl)
        (fun _ _ _ _ => rfl) (fun _ _ => rfl) w r w' run)

theorem eventful_tell (w : World) (x : Observer) (change : ObjectId) :
    Eventful a w (w.tell x change) := (frame_sustains.tell w x change).eventful rfl

theorem eventful_touches {o : ObjectId} {name : String} (other : (⟨o, name⟩ : Dependency) ≠ a) :
    Touches (Eventful a) o name where
  change w c about :=
    .change fun here => absurd (by rw [← about.1, ← about.2, here.1, here.2]) other
  store w d v known free has := (frame_sustains.store w o d name v known free has).eventful
    (changes_modifyDeclared w o _ a)
  unset w d old known free stored :=
    (frame_sustains.unset w o d name old known free stored).eventful
    (changes_modifyDeclared w o _ a)
  tell y i _ _ _ _ := eventful_tell _ y i

/-- Performers whose answers only add events of a constant are in accord with themselves wherever it
is one. -/
theorem eventful_accord {self : Performer}
    (answers : ∀ (β : Type) (q : Request β) w, w.Constant a → (self β q).KeepsAt (Eventful a) w) :
    Accord (·.Constant a) (Eventful a) self self :=
  have H : Answering (·.Constant a) (Eventful a) self self :=
    { border := eventful_border a
      kept := fun is inside => inside.constant is
      hold := fun _ is => is.of_objects rfl
      asked := fun β q w is => (answers β q w is).refines }
  have C := H.calling fun is => is.of_objects rfl
  H.accord C (fun _ is => is.of_objects rfl) fun {e o name x _ w} is run =>
    have read : w.Constant a :=
      ((C.readBinding_at e o name (is.of_objects rfl)).keeps _ _ run).constant is
    have logged : (w.addEntry (.bindingUpdated o name (w.text x))).Constant a := read.of_objects rfl
    .within (fun inside => inside.guarded)
      (answers _ _ _ (logged.of_objects (objects_guard _ e name))).refines

end World

/-! ### Operations on a constant -/

/-- A constant is refused to everybody who would change it. -/
theorem Move.run_constant {o : ObjectId} {d : Declared} {name : String} {w : World} (move : Move)
    (known : w.declared? o = some d) (constant : d.isConstant name = true) (self : Performer) :
    (∃ x, move = .emit x) ∨
      move.run self o name w = some (.error (.readOnly d.typeName name), w) := by
  cases move with
  | assign x =>
    refine .inr ?_
    show (Action.read (·.entity? o) >>= _) w = _
    rw [Action.read_bind, w.declared?_eq_some.1 known]
    show Action.holding [.object o] (assignDeclared self o d name x) w = _
    unfold assignDeclared
    rw [if_pos constant]
    rfl
  | emit x => exact .inl ⟨x, rfl⟩
  | clear =>
    refine .inr ?_
    show (Action.read (·.declared? o) >>= _) w = _
    rw [Action.read_bind, known]
    dsimp only
    rw [if_pos constant]
    rfl

/-- The request makes a change of the attribute up that is no event. -/
def Request.makesUp (a : Dependency) : {α : Type} → Request α → Bool
  | _, .newChange c => decide (c.About a ∧ c.kind ≠ .event)
  | _, _ => false

/-- Answers requests within so many nested steps, as long as nobody makes changes of an attribute
up. -/
def performGenuine (a : Dependency) : Nat → Performer :=
  performChecked fun _ _ _ q _ _ => !q.makesUp a

namespace World
variable {w w' : World} {a : Dependency}

/-- A move on an attribute adds no change of a constant but events. -/
theorem eventful_move {self : Performer} (H : Accord (·.Constant a) (Eventful a) self self)
    (o : ObjectId) (name : String) (move : Move) (is : w.Constant a) :
    (move.run self o name).KeepsAt (Eventful a) w := by
  by_cases own : (⟨o, name⟩ : Dependency) = a
  · subst own
    obtain ⟨d, known, constant⟩ := is
    rcases move.run_constant known constant self with ⟨x, rfl⟩ | refused
    · -- nothing is stored, and the change that is made known is an event
      have emitted : (emit self o name x).RefinesOn (·.Constant ⟨o, name⟩) (Eventful ⟨o, name⟩)
          (emit self o name x) := by
        refine Domain.reading fun there => ?_
        split
        · refine H.holding _ fun w here => ?_
          exact H.dispatch_at .event .null x here (.change fun _ => rfl) fun y i _ _ =>
            eventful_tell _ y i
        · exact Domain.reading fun _ => H.throw _
      exact (emitted w ⟨d, known, constant⟩).keeps
    · exact .of_eq refused ((eventful_border _).refl w)
  · exact (H.move (eventful_touches own) move w is).keeps

/-- **The only changes of a constant that are made known are events.** -/
theorem eventful_of_genuine (n : Nat) {α : Type} (q : Request α) (is : w.Constant a) :
    (performGenuine a n α q).KeepsAt (Eventful a) w := by
  induction n generalizing α w with
  | zero =>
    intro r w' run
    cases run
  | succ n ih =>
    have H := eventful_accord fun _ q _ is => ih q is
    have F := eventful_border a
    intro r w' run
    obtain ⟨m, same, answer, genuine⟩ := exists_of_checked run
    cases same
    have moves {o name move v} (there : v.Constant a)
        (_ : Makes (performGenuine a n) o name q w move v) :
        (move.run (performGenuine a n) o name).RefinesAt (Eventful a) v
          (move.run (performGenuine a n) o name) := (eventful_move H o name move there).refines
    refine (H.respond_at q is moves (fun _ y _ _ _ _ => eventful_tell _ y _)
      fun arranges => Action.KeepsAt.refines ?_).keeps r w' answer
    cases q with
    | newChange c =>
      refine .of_eq rfl (.change fun about => ?_)
      by_contra other
      have made : (Request.newChange c).makesUp a = true := decide_eq_true ⟨about, other⟩
      rw [made] at genuine
      cases genuine
    | bind o name op f key =>
      intro r w' run
      have bound := (steady_changes a).bindAttribute o name op f key
        (fun w => changes_modifyDeclared w o _ a) (fun _ _ => rfl)
        (fun w _ => changes_modifyDeclared w o _ a) (fun _ _ => rfl)
      exact (frame_sustains.bind o name op f key w r w' run).eventful (bound w r w' run)
    | addBinding e name op f key =>
      exact .of_eq rfl ((frame_sustains.addBinding w e name _).eventful rfl)
    | subscribe reg name code =>
      have added : (Action.add (·.addWatcher ⟨code⟩)).Keeps (Eventful a) :=
        F.add fun _ => ⟨rfl, id, getElem?_push_of_eq_some _, id, Nat.le_refl _⟩
      have observed (c : WatcherRef) (w : World) :
          Eventful a w (w.modifyRegistry reg (·.add name (.watcher c))) :=
        (frame_sustains.observe w reg name c).eventful rfl
      have made (c : WatcherRef) : (pure ⟨name, c⟩ : Action Subscription).Keeps (Eventful a) :=
        F.toSteady.pure _
      exact F.seq added (fun c w => F.seq_update (observed c w) (made c _)) w
    | _ => contradiction

/-! ### Attributes -/

theorem newEngine_ok (config : Option Config) (w : World) :
    ∃ e u, newEngine config w = some (.ok e, u) := by
  cases config with
  | some c => exact ⟨_, _, rfl⟩
  | none =>
    cases given : w.config with
    | some c => exact ⟨_, _, by rw [newEngine, Action.bind_apply, globalConfig_of_some given]; rfl⟩
    | none => exact ⟨_, _, by rw [newEngine, Action.bind_apply, globalConfig_of_none given]; rfl⟩

/-- Binding succeeds, and declares what is bound. -/
theorem hasAttribute_of_bind {o : ObjectId} {d : Declared} (known : w.declared? o = some d)
    (name : String) (op : Operator) (f : FunctionRef) (key : ScopeKey) :
    ∃ w', bindAttribute o name op f key w = some (.ok (), w') ∧ w'.hasAttribute o name = true := by
  have found : ∃ e u, engineFor o d (w.modifyDeclared o (·.declare name)) = some (.ok e, u) := by
    cases engine : d.engine with
    | some e => exact ⟨e, _, by simp only [engineFor, engine]; rfl⟩
    | none =>
      obtain ⟨e, u, made⟩ := newEngine_ok d.config (w.modifyDeclared o (·.declare name))
      refine ⟨e, u.modifyDeclared o fun d => {d with engine := some e}, ?_⟩
      simp only [engineFor, engine]
      rw [Action.bind_apply, made]
      rfl
  obtain ⟨e, u, found⟩ := found
  have enlisted : (engineFor o d).Keeps World.Standing := by
    have F := Standing.steady
    unfold engineFor
    split
    · exact F.pure _
    · refine F.seq (F.newEngine d.config fun _ c => .addEngine c) fun e w => ?_
      exact F.seq_update (.modifyDeclared o _ fun _ _ => ⟨rfl, fun _ => id⟩) (F.pure e _)
  have declared : (w.modifyDeclared o (·.declare name)).declared? o = some (d.declare name) := by
    rw [declared?_modifyDeclared, if_pos rfl, known]
    rfl
  have has : (w.modifyDeclared o (·.declare name)).hasAttribute o name = true := by
    obtain ⟨members, same, contains⟩ := d.declare_eq name
    rw [hasAttribute_of_declared declared, same, Declared.hasAttribute, contains]
    simp
  have last := (enlisted _ _ _ found).trans
    (.modifyEngine e (·.addBinding name (op.bind f key)) fun _ => rfl)
  refine ⟨_, ?_, last.hasAttribute declared has⟩
  unfold bindAttribute
  rw [Action.read_bind, known]
  dsimp only
  rw [Action.update_bind, Action.bind_apply, found]
  rfl

/-- A name that is no attribute is looked up without any consequences. -/
theorem readAttr_of_missing {self : Performer} {o : ObjectId} {d : Declared} {name : String}
    (known : w.declared? o = some d) (missing : d.hasAttribute name = false) :
    readAttr self o name w = some (.ok none, w) := by
  have unset : d.values.get? name = none := by
    rw [Declared.hasAttribute, Bool.or_eq_false_iff, Dict.contains] at missing
    simpa using missing.1
  unfold readAttr
  rw [Action.read_bind, w.declared?_eq_some.1 known]
  dsimp only
  unfold readDeclared
  rw [unset, missing]
  rfl

/-- An attribute that is read has a value, if only the null value. -/
theorem readAttr_of_attribute {self : Performer} {o : ObjectId} {d : Declared} {name : String}
    {r : Except BindError (Option Value)} (known : w.declared? o = some d)
    (has : d.hasAttribute name = true) (run : readAttr self o name w = some (r, w')) :
    r ≠ .ok none := by
  unfold readAttr at run
  rw [Action.read_bind, w.declared?_eq_some.1 known] at run
  obtain ⟨w₁, inner, -⟩ := Action.exists_of_holding run
  unfold readDeclared at inner
  rintro rfl
  cases stored : d.values.get? name with
  | some v =>
    rw [stored] at inner
    cases inner
  | none =>
    simp only [stored, has, Bool.not_true, Bool.false_eq_true, if_false] at inner
    cases engine : d.engine with
    | none =>
      simp only [engine] at inner
      cases inner
    | some e =>
      simp only [engine] at inner
      rw [Action.read_bind] at inner
      split at inner
      · rcases Action.exists_of_bind inner with ⟨c, -, failed⟩ | ⟨_, u, -, rest⟩
        · cases failed
        · cases rest
      · cases inner

end World

/-! ### Everything -/

/-- Worlds that a host brings about from a given one. -/
inductive Later (w : World) : World → Prop where
  | start : Later w w
  | ask {v w' : World} {α : Type} {n : Nat} {q : Request α} {r : Except BindError α}
      (before : Later w v) (answer : perform n α q v = some (r, w')) : Later w w'
  | hold {v : World} (before : Later w v) (hs : List Handle) : Later w {v with held := hs}
  | collect {v : World} (before : Later w v) :
      Later w {v with log := #[], desk := {v.desk with events := #[]}}

theorem Later.firm {w w' : World} (later : Later w w') : w.Firm w' := by
  induction later with
  | start => exact .still rfl rfl
  | ask before answer ih => exact ih.trans (World.frame_stable.perform _ _ _ _ _ answer).firm
  | hold before hs ih => exact ih.trans (.still rfl rfl)
  | collect before ih => exact ih.trans (.still rfl rfl)

/-- Objects stand firm until anything is asked. -/
theorem World.firm_of_asks {α β : Type} {n : Nat} {q : Request α} {q' : Request β} {w v : World}
    (asks : Asks (perform n) q w q' v) : w.Firm v :=
  of_asks frame_stable (A := w.Firm) (fun firm stable => firm.trans stable.firm)
    (fun _ firm => firm.trans (.still rfl rfl)) (fun firm => firm.trans (.still rfl rfl))
    (fun _ firm => firm.trans (.still rfl rfl)) (fun e name firm => firm.trans (.guard _ e name))
    asks (.still rfl rfl)

/-- **Declarations last, and constants stay what they are.** Each of the elementary changes that
requests are made of leaves attributes of declared objects attributes, and constants constants
with the values they have. So does whatever a host asks for, one request after the other, and
every request that is asked meanwhile, however deep: both by its end, and by each moment at which
it asks for something itself. In all of these worlds, constants have values; whatever has a value
is an attribute; binding a name succeeds and leaves an attribute; and a read finds nothing exactly
if the name is no attribute. Whoever would change a constant, in whichever way, emits it or is
refused, and a refusal leaves the world as it is. So no change of a constant but events is ever
made known, as long as nobody makes one up. -/
theorem declarations_and_constants_last :
    Frame World.Stable ∧
    (∀ {w w' : World}, Later w w' → w.Firm w') ∧
    ∀ {bodies n : Nat} {limit : Option Nat} {α : Type} {q : Request α} {w : World},
      Underway bodies limit (n + 1) q w →
      (∀ {r w'}, perform (n + 1) α q w = some (r, w') → w.Firm w') ∧
      (∀ {β} {q' : Request β} {v}, Asks (perform n) q w q' v → w.Firm v) ∧
      (∀ {o d}, w.declared? o = some d → ∀ name,
        (d.isConstant name = true → (w.stored? o name).isSome = true) ∧
        ((w.stored? o name).isSome = true → w.hasAttribute o name = true) ∧
        (∀ op f key, ∃ w', perform (n + 1) Unit (.bind o name op f key) w = some (.ok (), w') ∧
          w'.hasAttribute o name = true) ∧
        (w.hasAttribute o name = false →
          perform (n + 1) _ (.readAttr o name) w = some (.ok none, w)) ∧
        ∀ {r w'}, perform (n + 1) _ (.readAttr o name) w = some (r, w') →
          (r = .ok none ↔ w.hasAttribute o name = false)) ∧
      (∀ {o d name move v}, Makes (perform n) o name q w move v → v.declared? o = some d →
        d.isConstant name = true → (∃ x, move = .emit x) ∨
          move.run (perform n) o name v = some (.error (.readOnly d.typeName name), v)) ∧
      ∀ {a r w'}, w.Constant a → performGenuine a (n + 1) α q w = some (r, w') →
        ∃ cs, w'.changes a = w.changes a ++ cs ∧ ∀ c ∈ cs, c.kind = .event := by
  refine ⟨World.frame_stable, Later.firm, fun {bodies n limit α q w} underway => ?_⟩
  refine ⟨?_, World.firm_of_asks, ?_, ?_, ?_⟩
  · intro r w' run
    exact (World.frame_stable.perform (n + 1) q w r w' run).firm
  · intro o d known name
    have stored : w.stored? o name = d.values.get? name := by
      rw [World.stored?, known]
      rfl
    rw [stored, World.hasAttribute_of_declared known]
    refine ⟨(World.owned_of_underway underway).valued known, fun set => ?_, fun op f key => ?_,
      World.readAttr_of_missing known, fun {r w'} run => ⟨?_, fun missing => ?_⟩⟩
    · exact Bool.or_eq_true_iff.2 (.inl set)
    · exact World.hasAttribute_of_bind known name op f key
    · rintro rfl
      by_contra has
      exact World.readAttr_of_attribute known (by simpa using has) run rfl
    · have same := run.symm.trans (World.readAttr_of_missing known missing)
      cases same
      rfl
  · intro o d name move v _ known constant
    exact move.run_constant known constant (perform n)
  · intro a r w' is run
    exact (World.eventful_of_genuine (n + 1) q is _ _ run).events

namespace fixedRate

/-- Tries to assign the rate, through the attributes of the owner, and then announces another. -/
def code (s : Scope) (_ : Arguments) : Program Value := do
  let view ← .request (.getName s "nonlocals")
  let _ ← (Program.request (.setAttr view "rate" (.int 7))).attempt
  .request (.emit s.owner "rate" (.int 9))
  return .int 1

/-- The rate is a constant. An observer would clear it whenever another is announced. -/
def session : Program Unit := do
  let o ← .request (.newObject
    { typeName := "Account", parent := none, attributes := .empty, members := []
      constants := .ofList [("rate", .int 5)], storage := .empty, config := none })
  .request (.keep "account" (.object o))
  let f ← .request (.newFunction "balance" ⟨.empty, .empty⟩ code)
  .request (.bind o "balance" .simple f (.given 0))
  let s ← .request (.subscribe ⟨0⟩ "rate" fun _ => .request (.clear ⟨0⟩ "rate"))
  .request (.keep "watch" (.subscription s))

def start : World := (session.run (perform 12) (.initial #[])).elim (.initial #[]) Prod.snd

theorem reachable : Reachable start := (Reachable.start #[]).final 12 session

def rate : Dependency := ⟨⟨0⟩, "rate"⟩

/-- The world after the balance has been asked for, while nobody makes changes of the rate up. -/
def asked : World :=
  (performGenuine rate 12 Value (.getAttr (.object ⟨0⟩) "balance") start).elim start Prod.snd

theorem rate_announced : (start.declared? ⟨0⟩).any (·.isConstant "rate") = true ∧
    (performGenuine rate 12 Value (.getAttr (.object ⟨0⟩) "balance") start).isSome = true ∧
    start.changes rate = [] ∧ (asked.changes rate).map Change.new = [.int 9] ∧
    asked.valueOf? rate = some (.int 5) ∧
    (start.log.size < asked.log.size) := by
  decide +kernel

/-- The rate stays what it is, and what is made known of it is the announcement. -/
theorem announces : ∃ c, asked.changes rate = [c] ∧ c.kind = .event ∧ c.new = .int 9 ∧
    (start.stored? ⟨0⟩ "rate").isSome = true ∧ start.hasAttribute ⟨0⟩ "rate" = true := by
  obtain ⟨constant, ends, before, after, _⟩ := rate_announced
  obtain ⟨known, constant⟩ := (Option.any_eq_true_iff_get ..).1 constant
  obtain ⟨⟨r, w'⟩, run⟩ := Option.isSome_iff_exists.1 ends
  have same : asked = w' := by rw [asked, run, Option.elim_some]
  obtain ⟨_, _, named, _, events⟩ := declarations_and_constants_last.2.2
    (.host (n := 12) (q := Request.getAttr (.object ⟨0⟩) "balance") reachable)
  have declared := (Option.some_get known).symm
  obtain ⟨valued, stored, _⟩ := named declared "rate"
  obtain ⟨cs, changes, events⟩ := events ⟨_, declared, constant⟩ run
  rw [← same, before, List.nil_append] at changes
  rw [changes] at after
  obtain ⟨c, only, new⟩ := List.map_eq_singleton_iff.1 after
  refine ⟨c, by rw [changes, only], events c (by rw [only]; exact List.mem_singleton_self c), new,
    valued constant, stored (valued constant)⟩

end fixedRate

end LiveBinding
