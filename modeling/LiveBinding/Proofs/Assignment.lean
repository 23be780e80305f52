import LiveBinding.Proofs.Notification

/-! Assignments in a network.

An assignment stores a value and makes the change known. What consulted the attribute awaits
an update from then on; everything else is as current as it was. -/
namespace LiveBinding

/-- Declaring a name makes it a member. -/
theorem Declared.declare_eq (d : Declared) (name : String) :
    ∃ members, d.declare name = {d with members := members} ∧
      ∀ n, members.contains n = (d.members.contains n || n == name) := by
  unfold declare
  split
  · next mem =>
    refine ⟨d.members, rfl, fun n => ?_⟩
    cases same : n == name with
    | true => rw [eq_of_beq same, mem, Bool.or_true]
    | false => rw [Bool.or_false]
  · exact ⟨_, rfl, fun n => by rw [Bool.eq_iff_iff]; simp⟩

namespace World
variable {w w' : World} {a d : Dependency} {n : Nat}

/-! ### Changing a value -/

/-- An attribute of a declared object that is no constant. -/
def Assignable (w : World) (a : Dependency) : Prop :=
  ∃ x, w.declared? a.object = some x ∧ x.isConstant a.name = false ∧ x.hasAttribute a.name = true

theorem Assignable.mono (assignable : w.Assignable a) (grows : w.Extends w') :
    w'.Assignable a := by
  obtain ⟨x, known, free, has⟩ := assignable
  obtain ⟨x', known', fixed⟩ := grows.declared known
  refine ⟨x', known', ?_, (fixed.attributes _).trans has⟩
  rw [Declared.isConstant, fixed.constants]
  exact free

theorem Assignable.attribute (assignable : w.Assignable a) : w.Attribute a := by
  obtain ⟨x, known, _, has⟩ := assignable
  exact ⟨x, known, has⟩

/-- Constants have values, so an attribute without a value can be assigned to. -/
theorem assignable_of_unset (reachable : Reachable w) (is : w.Attribute a)
    (unset : w.valueOf? a = none) : w.Assignable a := by
  obtain ⟨x, known, has⟩ := is
  refine ⟨x, known, Bool.eq_false_iff.2 fun constant => ?_, has⟩
  have value := (idle_of_reachable reachable).owned.valued known constant
  rw [valueOf?_of_declared known] at unset
  rw [Dict.contains, unset] at value
  cases value

/-- An observer of an attribute is on the list of the attribute. -/
theorem exists_of_observes {l : LinkRef} (observes : .link l ∈ w.observersOf a) :
    ∃ r, w.registryOf? a.object = some r ∧ 0 < (w.registry r).appearances a.name (.link l) := by
  unfold observersOf at observes
  cases found : w.registryOf? a.object with
  | none =>
    rw [found] at observes
    cases observes
  | some r =>
    rw [found] at observes
    exact ⟨r, rfl, Nat.add_pos_left (List.count_pos_iff.2 observes) _⟩

/-- Nothing but the value of an attribute may have changed. -/
structure Alters (a : Dependency) (w w' : World) : Prop where
  grows : w.Extends w'
  still : w.Still w'
  others : ∀ d, d ≠ a → w'.valueOf? d = w.valueOf? d
  whole : w.Whole → w'.Whole
  registries : w'.registries = w.registries

theorem alters_modifyDeclared {f : Declared → Declared} {x : Declared}
    (known : w.declared? a.object = some x) (fixed : x.Fixed (f x))
    (registry : ∀ d, (f d).registry = d.registry)
    (values : ∀ name, name ≠ a.name → (f x).values.get? name = x.values.get? name) :
    Alters a w (w.modifyDeclared a.object f) where
  grows := { Extends.refl w with
    declared := fun {o d} here => by
      rw [declared?_modifyDeclared]
      split
      · next same =>
        subst same
        rw [known] at here
        cases here
        rw [known]
        exact ⟨f x, rfl, fixed⟩
      · exact ⟨d, here, .refl d⟩
    back := fun {o d} here => by
      rw [declared?_modifyDeclared] at here
      split at here
      · obtain ⟨d₀, known, _⟩ := Option.map_eq_some_iff.1 here
        exact ⟨d₀, known⟩
      · exact ⟨d, here⟩
    entity := fun {o y} here plain => by
      rw [entity?_modifyDeclared]
      split
      · rw [here]
        cases y with
        | declared d => cases plain
        | change c => rfl
        | view p t => rfl
      · exact here }
  still := still_modifyDeclared a.object f registry
  others d other := by
    rw [valueOf?, stored?, declared?_modifyDeclared, valueOf?, stored?]
    split
    · next same =>
      rw [← same, known]
      refine values d.name fun names => other ?_
      cases a
      cases d
      cases same
      cases names
      rfl
    · rfl
  whole whole := ⟨whole.items, whole.entries⟩
  registries := rfl

/-- The world after an attribute has got a value. -/
def store (w : World) (a : Dependency) (v : Value) : World :=
  w.modifyDeclared a.object fun d => {d with values := d.values.insert a.name v}

theorem still_store (w : World) (a : Dependency) (v : Value) : w.Still (w.store a v) :=
  still_modifyDeclared a.object _ fun _ => rfl

theorem alters_store (is : w.Attribute a) (v : Value) : Alters a w (w.store a v) := by
  obtain ⟨x, known, has⟩ := is
  refine alters_modifyDeclared known ⟨rfl, rfl, rfl, rfl, rfl, rfl, fun n => ?_⟩ (fun _ => rfl)
    fun n other => ?_
  · show (((x.values.insert a.name v).get? n).isSome || _) = _
    rw [Dict.get?_insert]
    split
    · next same =>
      subst same
      exact has.symm
    · rfl
  · exact (Dict.get?_insert ..).trans (if_neg (Ne.symm other))

theorem valueOf?_store (is : w.Attribute a) (v : Value) (d : Dependency) :
    (w.store a v).valueOf? d = if a = d then some v else w.valueOf? d := by
  split
  · next same =>
    subst same
    obtain ⟨x, known, _⟩ := is
    rw [valueOf?, stored?, store, declared?_modifyDeclared, if_pos rfl, known]
    exact (Dict.get?_insert ..).trans (if_pos rfl)
  · next other => exact (alters_store is v).others d (Ne.symm other)

theorem extends_store (is : w.Attribute a) (v : Value) : w.Extends (w.store a v) :=
  (alters_store is v).grows

/-- Nothing but a value tells the worlds before and after apart. -/
theorem Extends.of_store (is : w.Attribute a) (v : Value) : (w.store a v).Extends w := by
  obtain ⟨x, known, has⟩ := is
  have fixed : Declared.Fixed {x with values := x.values.insert a.name v} x := by
    refine ⟨rfl, rfl, rfl, rfl, rfl, rfl, fun n => ?_⟩
    show _ = (((x.values.insert a.name v).get? n).isSome || _)
    rw [Dict.get?_insert]
    split
    · next same =>
      subst same
      exact has
    · rfl
  exact { Extends.refl w with
    declared := fun {o d} here => by
      rw [store, declared?_modifyDeclared] at here
      split at here
      · next same =>
        subst same
        rw [known] at here
        cases here
        exact ⟨x, known, fixed⟩
      · exact ⟨d, here, .refl d⟩
    back := fun {o d} here => by
      rw [store, declared?_modifyDeclared]
      split
      · exact ⟨_, by rw [here]; rfl⟩
      · exact ⟨d, here⟩
    entity := fun {o y} here plain => by
      rw [store, entity?_modifyDeclared] at here
      split at here
      · obtain ⟨y', there, same⟩ := Option.map_eq_some_iff.1 here
        cases y' with
        | declared d =>
          subst same
          cases plain
        | change c =>
          subst same
          exact there
        | view p t =>
          subst same
          exact there
      · exact here }

/-- The world after an attribute has lost its value. -/
def erase (w : World) (a : Dependency) : World :=
  w.modifyDeclared a.object fun d => ({d with values := d.values.erase a.name}).declare a.name

theorem alters_erase (is : w.Attribute a) : Alters a w (w.erase a) := by
  obtain ⟨x, known, has⟩ := is
  have fixed : x.Fixed (({x with values := x.values.erase a.name}).declare a.name) := by
    obtain ⟨members, same, contains⟩ :=
      Declared.declare_eq {x with values := x.values.erase a.name} a.name
    rw [same]
    refine ⟨rfl, rfl, rfl, rfl, rfl, rfl, fun n => ?_⟩
    show (((x.values.erase a.name).get? n).isSome || members.contains n) = _
    rw [Dict.get?_erase, contains]
    split
    · next same =>
      rw [← same, has]
      simp
    · next other =>
      have apart : (n == a.name) = false := beq_eq_false_iff_ne.2 (Ne.symm other)
      rw [apart, Bool.or_false]
      rfl
  refine alters_modifyDeclared known fixed (fun d => ?_) fun n other => ?_
  · obtain ⟨members, same, _⟩ := Declared.declare_eq {d with values := d.values.erase a.name} a.name
    rw [same]
  · obtain ⟨members, same, _⟩ := Declared.declare_eq {x with values := x.values.erase a.name} a.name
    rw [same]
    exact (Dict.get?_erase ..).trans (if_neg (Ne.symm other))

theorem valueOf?_erase (is : w.Attribute a) : (w.erase a).valueOf? a = none := by
  obtain ⟨x, known, _⟩ := is
  obtain ⟨members, same, _⟩ := Declared.declare_eq {x with values := x.values.erase a.name} a.name
  rw [valueOf?, stored?, erase, declared?_modifyDeclared, if_pos rfl, known]
  show (Declared.declare _ a.name).values.get? a.name = none
  rw [same]
  exact Dict.get?_erase_self ..

/-! ### Assigning -/

/-- An equal value is left alone. -/
theorem setAttr_of_equal {v old : Value} (assignable : w.Assignable a)
    (here : w.valueOf? a = some old) (same : w.equal old v = true) (self : Performer) :
    setAttr self (.object a.object) a.name v w = some (.ok (), w) := by
  obtain ⟨x, known, free, has⟩ := assignable
  have stored : x.values.get? a.name = some old := (valueOf?_of_declared known).symm.trans here
  let w₁ := {w with held := [Handle.object a.object] ++ w.held}
  have held : w₁.equal old v = true := (equal_congr (by rfl) (by rfl) old v).trans same
  have inner : assignDeclared self a.object x a.name v w₁ = some (.ok (), w₁) := by
    simp only [assignDeclared, free, has, stored, Bool.not_true, Bool.false_eq_true, if_false,
      Action.read_bind]
    rw [held]
    rfl
  simp only [setAttr, assign, Action.read_bind, (w.declared?_eq_some).1 known]
  rw [Action.holding, Action.within_apply, inner]

/-- An assignment leaves an equal value alone; otherwise it stores the value and makes the
change known. -/
theorem assign_leads {Q : World → Prop} {v : Value} (assignable : w.Assignable a)
    (stable : ∀ {w₁ w₂}, w₁.Slips w.tracers.size w₂ → Q w₁ → Q w₂)
    (equal : ∀ {w'} old, w.Slips w.tracers.size w' → w.valueOf? a = some old →
      w.equal old v = true → Q w')
    (changed : ∀ {w'} kind old, w.Eases w.tracers.size w' → w.SameGuards w' →
      (∀ old, w.valueOf? a = some old → w.equal old v = false) →
      Leads (w'.store a v) (fun self => dispatch self a.object kind a.name old v) fun r w' =>
        r = .ok () ∧ Q w') :
    Leads w (fun self => setAttr self (.object a.object) a.name v) fun r w' =>
      r = .ok () ∧ Q w' := by
  by_cases equals : ∃ old, w.valueOf? a = some old ∧ w.equal old v = true
  · obtain ⟨old, here, same⟩ := equals
    exact Leads.of_eq (setAttr_of_equal assignable here same) ⟨rfl, equal old (.refl w) here same⟩
  have differs (old : Value) (here : w.valueOf? a = some old) : w.equal old v = false :=
    Bool.eq_false_iff.2 fun same => equals ⟨old, here, same⟩
  obtain ⟨x, known, free, has⟩ := assignable
  have value : w.valueOf? a = x.values.get? a.name := valueOf?_of_declared known
  refine Leads.congr (b := fun self =>
    Action.holding [.object a.object] (assignDeclared self a.object x a.name v)) (fun self => ?_)
      (Leads.holding ?_)
  · have entity := (w.declared?_eq_some).1 known
    simp only [setAttr, assign, Action.read_bind, entity]
  let w₁ := {w with held := [Handle.object a.object] ++ w.held}
  have enter : w.Eases w.tracers.size w₁ := .holding w (.cons rfl .nil)
  have store (kind : ChangeKind) (old : Value) :
      Leads w₁ (fun self => storeValue a.object a.name v >>= fun _ =>
        dispatch self a.object kind a.name old v) fun r w' =>
          r = .ok () ∧ Q {w' with held := w.held} := by
    refine Leads.update ((changed kind old enter (fun _ => rfl) differs).mono ?_)
    rintro r w' ⟨rfl, here⟩
    exact ⟨rfl, stable (.progress w' w'.limit _) here⟩
  cases stored : x.values.get? a.name with
  | none =>
    refine Leads.congr (fun self => ?_) (store .create .null)
    simp only [assignDeclared, free, has, stored]
    rfl
  | some old =>
    have held : w₁.equal old v = false :=
      (equal_congr (by rfl) (by rfl) old v).trans (differs old (value.trans stored))
    refine Leads.congr (fun self => ?_) (store .update old)
    simp only [assignDeclared, free, has, stored, Bool.not_true, Bool.false_eq_true, if_false,
      Action.read_bind]
    rw [held]
    rfl

/-- A change that stores nothing is made known. -/
theorem emit_leads {Q : World → Prop} {v : Value} (is : w.Attribute a)
    (stable : ∀ {w₁ w₂}, w₁.Slips n w₂ → Q w₁ → Q w₂)
    (sent : ∀ {w'}, w.Slips n w' → w.SameGuards w' →
      Leads w' (fun self => dispatch self a.object .event a.name .null v) fun r w' =>
        r = .ok () ∧ Q w') :
    Leads w (fun self => emit self a.object a.name v) fun r w' => r = .ok () ∧ Q w' := by
  obtain ⟨x, known, has⟩ := is
  have there : w.hasAttribute a.object a.name = true := by
    rw [hasAttribute, hasWithin_of_declared known, has, Bool.and_true]
    exact decide_eq_true (Nat.succ_pos _)
  unfold emit
  refine Leads.read ?_
  simp only [there, if_true]
  have enter : w.Slips n {w with held := [Handle.object a.object] ++ w.held} :=
    .progress w w.limit _
  refine Leads.holding ((sent enter fun _ => rfl).mono ?_)
  rintro r w' ⟨rfl, here⟩
  exact ⟨rfl, stable (.progress w' w'.limit _) here⟩

/-- An attribute without a value is left alone; otherwise the value is gone before the change is
made known. -/
theorem clear_leads {Q : World → Prop} (assignable : w.Assignable a)
    (unset : w.valueOf? a = none → Q w)
    (changed : ∀ old, w.valueOf? a = some old →
      Leads (w.erase a) (fun self => dispatch self a.object .delete a.name old .null) fun r w' =>
        r = .ok () ∧ Q w') :
    Leads w (fun self => clear self a.object a.name) fun r w' => r = .ok () ∧ Q w' := by
  obtain ⟨x, known, free, _⟩ := assignable
  have value : w.valueOf? a = x.values.get? a.name := valueOf?_of_declared known
  unfold clear
  refine Leads.read ?_
  simp only [known, free]
  cases stored : x.values.get? a.name with
  | none => exact Leads.of_eq (fun _ => rfl) ⟨rfl, unset (value.trans stored)⟩
  | some old => exact Leads.update (changed old (value.trans stored))

end World

namespace Network
variable {N : Network} {w w' : World} {P : Dependency → Prop} {x y a d : Dependency} {v : Value}
  {e : EngineRef} {h : Handler} {n : Nat}

/-! ### What awaits an update -/

/-- One of the links of a bound attribute observes an attribute. -/
def Awaits (N : Network) (w : World) (a y : Dependency) : Prop :=
  ∃ e h l, N.start.handlerOf? y = some (e, h) ∧ l ∈ (w.engine e).linksOf y.name ∧
    .link l ∈ w.observersOf a

/-- What has an attribute on record as consulted awaits an update when the attribute changes. -/
theorem Inv.awaits_of_latest (sound : N.Sound) (inv : N.Inv w P)
    (handler : N.start.handlerOf? x = some (e, h)) {v : Evaluation}
    (latest : (w.engine e).latest x.name = some v) (owner : v.owner = x.object)
    (is : N.start.Attribute a) (mem : a ∈ v.consulted) (other : a ≠ x) : N.Awaits w a x := by
  obtain ⟨engine, _⟩ := World.handlerOf?_eq_some.1 handler
  have traced : (w.engine e).config.traceSubscriptions = true := by
    rw [inv.grows.config]
    exact sound.traced engine
  have apart : ¬(a.object = v.owner ∧ a.name = x.name) := by
    rintro ⟨object, name⟩
    cases a
    cases x
    cases object.trans owner
    cases name
    exact other rfl
  obtain ⟨l, held, observes⟩ := inv.ledger.exists_link latest traced mem
    (inv.grows.attribute.2 is) apart (inv.fresh engine)
  exact ⟨e, h, l, handler, held, observes⟩

theorem Inv.awaits (sound : N.Sound) (inv : N.Inv w P) {w₀ : World} {u : Value}
    {ds : List Dependency} (current : N.Current w₀ w x u ds) (is : N.start.Attribute a)
    (mem : a ∈ ds) (other : a ≠ x) : N.Awaits w a x := by
  obtain ⟨e, h, v, handler, latest, owner, recorded⟩ := current.recorded
  exact inv.awaits_of_latest sound handler latest owner is (recorded a mem is) other

/-- A link that observes an attribute is for a bound attribute, of a higher rank if the observed
one is bound, which has a value then. -/
theorem Inv.link (inv : N.Inv w P) {l : LinkRef} (observes : .link l ∈ w.observersOf d) :
    ∃ k h, w.links[l.index]? = some k ∧ N.start.handlerOf? k.site = some (k.engine, h) ∧
      (N.start.Bound d → (w.valueOf? d).isSome ∧ N.rank d < N.rank k.site) := by
  obtain ⟨r, found, appears⟩ := World.exists_of_observes observes
  exact inv.linked found appears

/-- A link of a bound attribute that observes something is for that bound attribute. -/
theorem Inv.site (sound : N.Sound) (inv : N.Inv w P) {l : LinkRef}
    (handler : N.start.handlerOf? y = some (e, h)) (held : l ∈ (w.engine e).linksOf y.name)
    (observes : .link l ∈ w.observersOf a) : ∃ k, w.links[l.index]? = some k ∧ k.site = y := by
  obtain ⟨k, h', made, handler', _⟩ := inv.link observes
  obtain ⟨v, _, d, _, placed⟩ := inv.ledger.exists_placed held
  rw [placed.made] at made
  cases made
  refine ⟨_, placed.made, ?_⟩
  have object : v.owner = y.object :=
    sound.apart (World.handlerOf?_eq_some.1 handler').1 (World.handlerOf?_eq_some.1 handler).1
  rw [Link.site, object]

theorem Awaits.store (awaits : N.Awaits w a y) (v : Value) : N.Awaits (w.store a v) a y := by
  obtain ⟨e, h, l, handler, held, observes⟩ := awaits
  refine ⟨e, h, l, handler, held, ?_⟩
  rw [World.observersOf, (w.still_store a v).registryOf?]
  exact observes

/-- After a new value has been stored, what awaits an update is pending. -/
theorem Inv.store (sound : N.Sound) (inv : N.Inv w fun y => P y ∨ y = a)
    (is : N.start.Attribute a) (fit : N.fits w a v)
    (now : N.start.Bound a → ∃ ds, N.Current N.start w a v ds) :
    N.Inv (w.store a v) fun y => P y ∨ N.Awaits (w.store a v) a y := by
  have is' := inv.grows.attribute.2 is
  have grows := World.extends_store is' v
  have still := w.still_store a v
  have value (d : Dependency) := World.valueOf?_store is' v d
  constructor
  · exact inv.grows.trans grows
  · exact ⟨inv.whole.items, inv.whole.entries⟩
  · exact still.ledger inv.ledger
  · intro d u there here
    rw [value] at here
    split at here
    · next same =>
      cases here
      subst same
      exact sound.fitsMono grows fit
    · exact sound.fitsMono grows (inv.fits there here)
  · intro d free none
    rw [value] at none
    split at none
    · cases none
    · exact inv.unset free none
  · intro d r l found some
    rw [still.registryOf?] at found
    obtain ⟨k, h, made, handler, above⟩ := inv.linked found some
    refine ⟨k, h, made, handler, fun bound => ⟨?_, (above bound).2⟩⟩
    rw [value]
    split
    · rfl
    · exact (above bound).1
  · exact inv.fresh
  · intro x u bound here done
    rw [value] at here
    split at here
    · next same =>
      cases here
      subst same
      obtain ⟨ds, current⟩ := now bound
      refine ⟨v, ds, .same v, current.keep sound inv.grows grows (fun d mem => ?_) fun _ => rfl⟩
      -- no attribute is lower than itself
      rw [value, if_neg]
      rintro rfl
      exact Nat.lt_irrefl _ (current.yields.lower a mem bound)
    · next other =>
      have settled : ¬(P x ∨ x = a) := by
        rintro (pending | same)
        · exact done (.inl pending)
        · exact other same.symm
      obtain ⟨u', ds, alike, current⟩ := inv.current bound here settled
      refine ⟨u', ds, alike.mono grows,
        current.keep sound inv.grows grows (fun d mem => ?_) fun _ => rfl⟩
      rw [value, if_neg]
      rintro rfl
      exact done (.inr ((inv.awaits sound current is mem other).store v))

end Network

end LiveBinding
