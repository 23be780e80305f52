import LiveBinding.Proofs.Inversion
import LiveBinding.Proofs.Isolation
import LiveBinding.Proofs.Recording

/-! Why an assignment through an expression fails.

There are failures of the inversion itself: an expression that has no inverse, a base that leads
nowhere, an attribute or a container that does not take the value. And there are failures from
further down: the value is taken, and then the write handler that the assignment has run fails.
Here all of them are told apart, and with them what an inversion makes of each. -/
namespace LiveBinding
variable {α β : Type} {n : Nat} {w u : World} {e : BindError}

/-! ### Failing -/

/-- The action ends with that failure. -/
def Fails (a : Action α) (w : World) (e : BindError) : Prop := ∃ w', a w = some (.error e, w')

namespace Fails

@[simp] theorem throw (e' : BindError) : Fails (Action.throw e' : Action α) w e ↔ e = e' := by
  constructor
  · rintro ⟨w', run⟩
    cases run
    rfl
  · rintro rfl
    exact ⟨w, rfl⟩

@[simp] theorem pure (x : α) : ¬Fails (Pure.pure x) w e := fun ⟨_, run⟩ => nomatch run

@[simp] theorem succeed (x : α) : ¬Fails (Action.succeed x) w e := fun ⟨_, run⟩ => nomatch run

/-- A sequence fails in its first part, or after it. -/
theorem bind {a : Action α} {f : α → Action β} : Fails (a >>= f) w e ↔
    Fails a w e ∨ ∃ x u, a w = some (.ok x, u) ∧ Fails (f x) u e := by
  constructor
  · rintro ⟨w', run⟩
    rcases Action.exists_of_bind run with ⟨e', failed, same⟩ | ⟨x, u, succeeded, rest⟩
    · cases same
      exact .inl ⟨w', failed⟩
    · exact .inr ⟨x, u, succeeded, w', rest⟩
  · rintro (⟨w', failed⟩ | ⟨x, u, succeeded, w', rest⟩)
    · exact ⟨w', by rw [Action.bind_apply, failed]⟩
    · exact ⟨w', by rw [Action.bind_apply, succeeded]; exact rest⟩

@[simp] theorem read_bind (g : World → α) (f : α → Action β) :
    Fails (Action.read g >>= f) w e ↔ Fails (f (g w)) w e := Iff.rfl

@[simp] theorem update_bind (g : World → World) (f : Unit → Action β) :
    Fails (Action.update g >>= f) w e ↔ Fails (f ()) (g w) e := Iff.rfl

theorem mapError {f : BindError → BindError} {a : Action α} :
    Fails (a.mapError f) w e ↔ ∃ e', Fails a w e' ∧ e = f e' := by
  unfold Fails Action.mapError
  rcases a w with _ | ⟨e' | x, u⟩
  · simp
  · simp [eq_comm]
  · simp

theorem within {enter : World → World} {leave : World → World → World} {a : Action α} :
    Fails (a.within enter leave) w e ↔ Fails a (enter w) e := by
  unfold Fails
  rw [Action.within_apply]
  rcases a (enter w) with _ | ⟨r, u⟩ <;> simp

theorem holding {hs : List Handle} {a : Action α} :
    Fails (Action.holding hs a) w e ↔ Fails a (w.hold hs) e := within

theorem attempt {a : Action α} {f : Except BindError α → Action β} :
    Fails (a.attempt >>= f) w e ↔ ∃ r u, a w = some (r, u) ∧ Fails (f r) u e := by
  unfold Fails
  rw [Action.bind_apply, Action.attempt_apply]
  rcases a w with _ | ⟨r, u⟩ <;> simp

end Fails

/-! ### Refusals -/

/-- The value does not take an assignment to that attribute. -/
inductive Refuses : Nat → Value → String → World → AccessError → Prop where
  | plain {n : Nat} {y : Value} {name : String} {w : World} (plain : ∀ o, y ≠ .object o) :
      Refuses n y name w (.noSuchAttribute (w.typeNameOf y) name)
  | constant {n : Nat} {o : ObjectId} {d : Declared} {name : String} {w : World}
      (known : w.declared? o = some d) (constant : d.isConstant name = true) :
      Refuses n (.object o) name w (.readOnly d.typeName name)
  | missing {n : Nat} {o : ObjectId} {d : Declared} {name : String} {w : World}
      (known : w.declared? o = some d) (free : d.isConstant name = false)
      (lacks : d.hasAttribute name = false) :
      Refuses n (.object o) name w (.noSuchAttribute d.typeName name)
  | change {n : Nat} {o : ObjectId} {c : Change} {name : String} {w : World}
      (entity : w.entity? o = some (.change c)) (shows : (c.attribute? name).isSome = true) :
      Refuses n (.object o) name w (.readOnly "Change" name)
  | unchanging {n : Nat} {o : ObjectId} {c : Change} {name : String} {w : World}
      (entity : w.entity? o = some (.change c)) (lacks : (c.attribute? name).isSome = false) :
      Refuses n (.object o) name w (.noSuchAttribute "Change" name)
  | around {n : Nat} {o p : ObjectId} {t : Option TracerRef} {name : String} {w : World}
      (entity : w.entity? o = some (.view p t)) (nowhere : w.nearest? p name = none) :
      Refuses n (.object o) name w (.noSuchAttribute (w.typeName p) name)
  /-- A view passes the assignment on. -/
  | view {n : Nat} {o p q : ObjectId} {t : Option TracerRef} {name : String} {w : World}
      {c : AccessError} (entity : w.entity? o = some (.view p t))
      (nearest : w.nearest? p name = some q)
      (refuses : Refuses n (.object q) name (w.hold [.object o]) c) :
      Refuses (n + 1) (.object o) name w c
  | gone {n : Nat} {o : ObjectId} {name : String} {w : World} (gone : w.entity? o = none) :
      Refuses n (.object o) name w (.noSuchAttribute "" name)

/-! ### Handlers that fail -/

/-- An assignment has been taken, and the write handler that it has run fails: the value is stored,
the observers have been told of the change, and the engine of the object passes failures on. -/
inductive Backfires : Nat → ObjectId → String → Value → World → BindError → Prop where
  | here {n k : Nat} {o : ObjectId} {d : Declared} {name : String} {x : Value} {w u told : World}
      {c : Change} {g : EngineRef} {h : Handler} {e : BindError} (known : w.declared? o = some d)
      (allowed : (Move.assign x).Allowed d name)
      (sends : (Move.assign x).sends o name w = some (c, u))
      (tells : notify (perform n) d.registry ⟨u.objects.size⟩ (u.announce c) = some (.ok k, told))
      (engine : told.engineOf? o = some g) (free : name ∉ (told.engine g).guards)
      (bound : ((told.engine g).bindings.get? name).bind Binding.write = some h)
      (propagates : (told.engine g).config.policy = .propagate)
      (fails : Fails (h.write (perform n) o name ⟨u.objects.size⟩)
        {told.hold [.engine g] with limit := some (told.engine g).config.maxDepth} e) :
      Backfires n o name x w e
  /-- A view passes the assignment on. -/
  | view {n : Nat} {o p q : ObjectId} {t : Option TracerRef} {name : String} {x : Value} {w : World}
      {e : BindError} (entity : w.entity? o = some (.view p t))
      (nearest : w.nearest? p name = some q)
      (backfires : Backfires n q name x (w.hold [.object o]) e) : Backfires (n + 1) o name x w e

section
variable {self : Performer} {o : ObjectId} {d : Declared} {name : String} {x : Value}

/-- What is written back fails exactly if a handler is run that fails and whose engine passes it
on. -/
theorem fails_write {g : EngineRef} {change : ObjectId} :
    Fails (Engine.write self g o name change) w e ↔ ∃ h, name ∉ (w.engine g).guards ∧
      ((w.engine g).bindings.get? name).bind Binding.write = some h ∧
      (w.engine g).config.policy = .propagate ∧
      Fails (h.write self o name change) {w with limit := some (w.engine g).config.maxDepth} e := by
  unfold Engine.write
  rw [Fails.read_bind]
  by_cases guarded : name ∈ (w.engine g).guards
  · rw [if_pos (List.contains_iff_mem.2 guarded)]
    refine iff_of_false (fun ⟨_, run⟩ => nomatch run) ?_
    rintro ⟨_, free, _⟩
    exact free guarded
  rw [if_neg (by simpa using guarded)]
  cases bound : ((w.engine g).bindings.get? name).bind Binding.write with
  | none => exact iff_of_false (Fails.pure ()) fun ⟨_, _, same, _⟩ => nomatch same
  | some h =>
    show Fails (Action.underLimit _ _) w e ↔ _
    unfold Action.underLimit
    rw [Fails.within, Fails.attempt]
    constructor
    · rintro ⟨r, u, run, settled⟩
      cases r with
      | ok _ => exact absurd settled (Fails.pure ())
      | error cause =>
        cases policy : (w.engine g).config.policy with
        | propagate =>
          rw [policy] at settled
          obtain rfl := (Fails.throw cause).1 settled
          exact ⟨h, guarded, rfl, rfl, u, run⟩
        | logAndContinue =>
          rw [policy] at settled
          obtain ⟨_, settled⟩ := settled
          cases settled
    · rintro ⟨_, _, same, policy, u, run⟩
      cases same
      refine ⟨.error e, u, run, ?_⟩
      rw [policy]
      exact ⟨u, rfl⟩

/-- Making a change known fails exactly if writing it back does. -/
theorem fails_dispatch {kind : ChangeKind} {old new : Value} {reg : RegistryRef}
    (observable : w.registryOf? o = some reg) :
    Fails (dispatch self o kind name old new) w e ↔ ∃ k told g,
      notify self reg ⟨w.objects.size⟩ (w.announce ⟨kind, o, name, old, new⟩) =
        some (.ok k, told) ∧ told.engineOf? o = some g ∧
      Fails (Engine.write self g o name ⟨w.objects.size⟩) (told.hold [.engine g]) e := by
  have same : (w.announce ⟨kind, o, name, old, new⟩).registryOf? o = some reg :=
    (w.persists_announce _).registryOf? observable
  have known := w.change?_announce ⟨kind, o, name, old, new⟩
  unfold dispatch
  show Fails (Action.holding _ _) (w.addObject (.change ⟨kind, o, name, old, new⟩)).1 e ↔ _
  rw [Fails.holding]
  show Fails _ (w.announce ⟨kind, o, name, old, new⟩) e ↔ _
  rw [Fails.read_bind, same]
  dsimp only
  rw [Fails.bind]
  constructor
  · rintro (⟨w', failed⟩ | ⟨k, told, ended, rest⟩)
    · cases (exists_of_notify known failed).1
    · rw [Fails.read_bind] at rest
      cases engine : told.engineOf? o with
      | none =>
        rw [engine] at rest
        exact absurd rest (Fails.pure ())
      | some g =>
        rw [engine] at rest
        exact ⟨k, told, g, ended, engine, Fails.holding.1 rest⟩
  · rintro ⟨k, told, g, ended, engine, fails⟩
    refine .inr ⟨k, told, ended, ?_⟩
    rw [Fails.read_bind, engine]
    exact Fails.holding.2 fails

/-- Of the attributes of a declared object, constants refuse assignments, and so do those it does
not have. -/
theorem refuses_iff (known : w.declared? o = some d) {c : AccessError} :
    Refuses n (.object o) name w c ↔
      d.isConstant name = true ∧ c = .readOnly d.typeName name ∨
        d.isConstant name = false ∧ d.hasAttribute name = false ∧
          c = .noSuchAttribute d.typeName name := by
  have entity := (w.declared?_eq_some).1 known
  constructor
  · intro refuses
    cases refuses with
    | plain plain => exact absurd rfl (plain o)
    | constant known' constant =>
      cases known.symm.trans known'
      exact .inl ⟨constant, rfl⟩
    | missing known' free lacks =>
      cases known.symm.trans known'
      exact .inr ⟨free, lacks, rfl⟩
    | change entity' _ => cases entity.symm.trans entity'
    | unchanging entity' _ => cases entity.symm.trans entity'
    | around entity' _ => cases entity.symm.trans entity'
    | view entity' _ _ => cases entity.symm.trans entity'
    | gone gone => cases entity.symm.trans gone
  · rintro (⟨constant, rfl⟩ | ⟨free, lacks, rfl⟩)
    · exact .constant known constant
    · exact .missing known free lacks

/-- An assignment to a declared object fails if it is refused, or if writing the change back
does. -/
theorem fails_assignDeclared (known : w.declared? o = some d) :
    Fails (assign self o name x) w e ↔
      (∃ c, e = .access c ∧ Refuses n (.object o) name w c) ∨
        (Move.assign x).Allowed d name ∧ ∃ c u, (Move.assign x).sends o name w = some (c, u) ∧
          Fails (dispatch self o c.kind name c.old c.new) u e := by
  have entity := (w.declared?_eq_some).1 known
  have stored : w.stored? o name = d.values.get? name := by
    rw [World.stored?, known]
    rfl
  have refuses : (∃ c, e = .access c ∧ Refuses n (.object o) name w c) ↔
      d.isConstant name = true ∧ e = .readOnly d.typeName name ∨
        d.isConstant name = false ∧ d.hasAttribute name = false ∧
          e = .noSuchAttribute d.typeName name := by
    simp only [refuses_iff known]
    cases d.isConstant name <;> cases d.hasAttribute name <;>
      simp [BindError.readOnly, BindError.noSuchAttribute]
  rw [refuses]
  unfold assign
  rw [Fails.read_bind, entity]
  dsimp only
  rw [Fails.holding]
  unfold assignDeclared Move.Allowed Move.sends
  rw [stored]
  cases constant : d.isConstant name with
  | true => simp
  | false =>
    cases has : d.hasAttribute name with
    | false => simp
    | true =>
      simp only [Bool.not_true, Bool.false_eq_true, if_false, false_and, false_or, true_and,
        false_implies, and_true]
      cases held : d.values.get? name with
      | none => simp [storeValue, World.store]
      | some old =>
        have equal : (w.hold [.object o]).equal old x = w.equal old x :=
          w.equal_hold [.object o] old x
        dsimp only
        rw [Fails.read_bind, equal]
        cases same : w.equal old x with
        | true => simp
        | false => simp [storeValue, World.store]

/-- What an assignment does to anything but a declared object or a view. -/
theorem fails_setAttr_of_plain {y : Value} (self : Performer)
    (other : ∀ o, y = .object o → ∀ p t, w.entity? o ≠ some (.view p t))
    (undeclared : ∀ o, y = .object o → w.declared? o = none) :
    Fails (setAttr self y name x) w e ↔ ∃ c, e = .access c ∧ Refuses n y name w c := by
  -- there is one refusal, which is the failure
  have refused {c : AccessError} (here : Refuses n y name w c)
      (only : ∀ c', Refuses n y name w c' → c' = c) :
      e = .access c ↔ ∃ c, e = .access c ∧ Refuses n y name w c :=
    ⟨fun same => ⟨c, same, here⟩, fun ⟨c', same, refuses⟩ => only c' refuses ▸ same⟩
  by_cases plain : ∀ o, y ≠ .object o
  · have throws : Fails (setAttr self y name x) w e ↔
        e = .noSuchAttribute (w.typeNameOf y) name := by
      cases y with
      | object o => exact absurd rfl (plain o)
      | _ => exact Fails.throw _
    rw [throws]
    refine refused (.plain plain) fun c' refuses => ?_
    cases refuses with
    | plain _ => rfl
    | _ => exact absurd rfl (plain _)
  push Not at plain
  obtain ⟨o, rfl⟩ := plain
  show Fails (assign self o name x) w e ↔ _
  unfold assign
  rw [Fails.read_bind]
  rcases entity : w.entity? o with _ | d | c | ⟨p, t⟩
  · refine (Fails.throw _).trans (refused (.gone entity) fun c' refuses => ?_)
    cases refuses <;> simp_all [World.declared?]
  · have known := (w.declared?_eq_some).2 entity
    rw [undeclared o rfl] at known
    cases known
  · dsimp only
    split
    · next shows =>
      refine (Fails.throw _).trans (refused (.change entity shows) fun c' refuses => ?_)
      cases refuses <;> simp_all [World.declared?]
    · next lacks =>
      refine (Fails.throw _).trans
        (refused (.unchanging entity (by simpa using lacks)) fun c' refuses => ?_)
      cases refuses <;> simp_all [World.declared?]
  · exact absurd entity (other o rfl p t)

/-- On a declared object an assignment backfires if making its change known fails. -/
theorem backfires_iff (known : w.declared? o = some d) : Backfires n o name x w e ↔
    (Move.assign x).Allowed d name ∧ ∃ c u, (Move.assign x).sends o name w = some (c, u) ∧
      Fails (dispatch (perform n) o c.kind name c.old c.new) u e := by
  have entity := (w.declared?_eq_some).1 known
  -- the change is about the attribute, and the object has its registry when it is made known
  have dispatched {c : Change} {u : World} (sends : (Move.assign x).sends o name w = some (c, u)) :
      Fails (dispatch (perform n) o c.kind name c.old c.new) u e ↔ ∃ k told g,
        notify (perform n) d.registry ⟨u.objects.size⟩ (u.announce c) = some (.ok k, told) ∧
        told.engineOf? o = some g ∧
        Fails (Engine.write (perform n) g o name ⟨u.objects.size⟩) (told.hold [.engine g]) e := by
    have sent := Move.sent_of_sends sends
    have observable : u.registryOf? o = some d.registry := sent.persists.registryOf? (by
      rw [World.registryOf?, known]
      rfl)
    obtain ⟨rfl, rfl⟩ := sent.about
    exact fails_dispatch observable
  constructor
  · intro backfires
    cases backfires with
    | here known' allowed sends tells engine free bound propagates fails =>
      cases known.symm.trans known'
      refine ⟨allowed, _, _, sends, (dispatched sends).2 ⟨_, _, _, tells, engine, ?_⟩⟩
      exact fails_write.2 ⟨_, free, bound, propagates, fails⟩
    | view entity' _ _ => cases entity.symm.trans entity'
  · rintro ⟨allowed, c, u, sends, fails⟩
    obtain ⟨k, told, g, tells, engine, fails⟩ := (dispatched sends).1 fails
    obtain ⟨h, free, bound, propagates, fails⟩ := fails_write.1 fails
    exact .here known allowed sends tells engine free bound propagates fails

/-- A view passes an assignment on to the nearest object of its owner's chain. -/
theorem fails_assign_view {p : ObjectId} {t : Option TracerRef} (self : Performer)
    (entity : w.entity? o = some (.view p t)) : Fails (assign self o name x) w e ↔
      w.nearest? p name = none ∧ e = .noSuchAttribute (w.typeName p) name ∨
      ∃ q, w.nearest? p name = some q ∧
        Fails (self _ (.setAttr (.object q) name x)) (w.hold [.object o]) e := by
  unfold assign
  rw [Fails.read_bind, entity]
  dsimp only
  rw [Fails.read_bind]
  cases nearest : w.nearest? p name with
  | none => simp
  | some q => simp [Fails.holding]

/-- What an assignment through a view comes to, if that is known of those it is passed on to. -/
theorem fails_setAttr_of_view {p : ObjectId} {t : Option TracerRef}
    (entity : w.entity? o = some (.view p t)) (known : ∀ k < n, ∀ {q : ObjectId} {u : World},
      Fails (setAttr (perform k) (.object q) name x) u e ↔
        (∃ c, e = .access c ∧ Refuses k (.object q) name u c) ∨ Backfires k q name x u e) :
    Fails (setAttr (perform n) (.object o) name x) w e ↔
      (∃ c, e = .access c ∧ Refuses n (.object o) name w c) ∨ Backfires n o name x w e := by
  have undeclared {d : Declared} (here : w.declared? o = some d) : False := by
    cases entity.symm.trans ((w.declared?_eq_some).1 here)
  refine (fails_assign_view (perform n) entity).trans ?_
  constructor
  · rintro (⟨nowhere, rfl⟩ | ⟨q, nearest, fails⟩)
    · exact .inl ⟨_, rfl, .around entity nowhere⟩
    · cases n with
      | zero =>
        obtain ⟨_, run⟩ := fails
        cases run
      | succ n =>
        rcases (known n (Nat.lt_succ_self n)).1 fails with ⟨c, rfl, refuses⟩ | backfires
        · exact .inl ⟨c, rfl, .view entity nearest refuses⟩
        · exact .inr (.view entity nearest backfires)
  · rintro (⟨c, rfl, refuses⟩ | backfires)
    · cases refuses with
      | plain plain => exact absurd rfl (plain o)
      | around entity' nowhere =>
        cases entity.symm.trans entity'
        exact .inl ⟨nowhere, rfl⟩
      | view entity' nearest refuses =>
        cases entity.symm.trans entity'
        exact .inr ⟨_, nearest, (known _ (Nat.lt_succ_self _)).2 (.inl ⟨c, rfl, refuses⟩)⟩
      | constant here _ => exact (undeclared here).elim
      | missing here _ _ => exact (undeclared here).elim
      | change entity' _ => cases entity.symm.trans entity'
      | unchanging entity' _ => cases entity.symm.trans entity'
      | gone gone => cases entity.symm.trans gone
    · cases backfires with
      | here here _ _ _ _ _ _ _ _ => exact (undeclared here).elim
      | view entity' nearest backfires =>
        cases entity.symm.trans entity'
        exact .inr ⟨_, nearest, (known _ (Nat.lt_succ_self _)).2 (.inr backfires)⟩

/-- An assignment to an object fails if it is refused or if it backfires. -/
theorem fails_setAttr_object : Fails (setAttr (perform n) (.object o) name x) w e ↔
    (∃ c, e = .access c ∧ Refuses n (.object o) name w c) ∨ Backfires n o name x w e := by
  induction n using Nat.strong_induction_on generalizing o w with
  | _ n ih =>
    by_cases view : ∃ p t, w.entity? o = some (.view p t)
    · obtain ⟨p, t, entity⟩ := view
      exact fails_setAttr_of_view entity fun k below => ih k below
    cases known : w.declared? o with
    | some d => exact (fails_assignDeclared known).trans (or_congr_right (backfires_iff known).symm)
    | none =>
      have other (o' : ObjectId) (same : Value.object o = .object o') (p : ObjectId)
          (t : Option TracerRef) (entity : w.entity? o' = some (.view p t)) : False := by
        cases same
        exact view ⟨p, t, entity⟩
      refine (fails_setAttr_of_plain (perform n) other fun o' same => ?_).trans (iff_self_or.2 ?_)
      · cases same
        exact known
      · intro backfires
        cases backfires with
        | here known' _ _ _ _ _ _ _ _ => cases known.symm.trans known'
        | view entity _ _ => exact (view ⟨_, _, entity⟩).elim

/-- An assignment fails if it is refused or if it backfires, and in no other way. A refusal is an
access error. -/
theorem fails_setAttr {y : Value} : Fails (setAttr (perform n) y name x) w e ↔
    (∃ c, e = .access c ∧ Refuses n y name w c) ∨
      ∃ o, y = .object o ∧ Backfires n o name x w e := by
  by_cases plain : ∀ o, y ≠ .object o
  · have other (o : ObjectId) (same : y = .object o) : False := plain o same
    refine (fails_setAttr_of_plain (perform n) (fun o same => (other o same).elim)
      fun o same => (other o same).elim).trans (iff_self_or.2 ?_)
    rintro ⟨o, same, -⟩
    exact (other o same).elim
  · push Not at plain
    obtain ⟨o, rfl⟩ := plain
    refine fails_setAttr_object.trans (or_congr_right ⟨fun backfires => ⟨o, rfl, backfires⟩, ?_⟩)
    rintro ⟨_, same, backfires⟩
    cases same
    exact backfires

end

/-! ### Targets -/

/-- The path that leads to what is assigned to. -/
def Target.base? : Target → Option Path
  | .attr base _ | .item base _ => some base
  | _ => none

/-- In a scope, the target comes to an attribute of a value, and to the world in which it is
assigned. -/
inductive Comes (n : Nat) (s : Scope) (w : World) : Target → Value → String → World → Prop where
  | name {o : ObjectId} {name : String} (free : isReserved name = false)
      (nearest : w.nearest? s.owner name = some o) : Comes n s w (.name name) (.object o) name w
  | attr {base : Path} {y : Value} {name : String} {u : World}
      (leads : resolve (perform n) s base w = some (.ok y, u)) :
      Comes n s w (.attr base name) y name u
  | call {function : String} {f y : Value} {name : String} {u : World}
      (found : getName (perform n) s function w = some (.ok f, u)) (reads : u.reads f = true) :
      Comes n s w (.call function [y, .str name]) y name u

/-- Why the assignment of a value through a target fails, in a scope. -/
inductive Fault (n : Nat) (s : Scope) (x : Value) (w : World) : Target → BindError → Prop where
  /-- There is no inverse. -/
  | shape {shape : String} : Fault n s x w (.unsupported shape) (.inversion (.noInverse shape))
  | function {function : String} {args : List Value} {f : Value} {u : World}
      (found : getName (perform n) s function w = some (.ok f, u)) (other : u.reads f = false) :
      Fault n s x w (.call function args) (.inversion (.notInvertible function))
  | arguments {function : String} {args : List Value} {f : Value} {u : World}
      (found : getName (perform n) s function w = some (.ok f, u)) (reads : u.reads f = true)
      (other : ∀ y name, args ≠ [y, .str name]) :
      Fault n s x w (.call function args) (.inversion .badArguments)
  /-- The base does not resolve. -/
  | root {target : Target} {root name : String} (of : target.root? = some root)
      (unknown : Fails (getName (perform n) s root) w (.nameResolution name)) :
      Fault n s x w target (.inversion (.unresolvedBase name))
  | hop {target : Target} {path : Path} {before after : List String} {hop : String} {y : Value}
      {c : AccessError} {u u' : World} (of : target.base? = some path)
      (hops : path.hops = before ++ hop :: after)
      (leads : resolve (perform n) s ⟨path.root, before⟩ w = some (.ok y, u))
      (missing : getAttr (perform n) y hop u = some (.error (.access c), u')) :
      Fault n s x w target (.inversion (.missingHop (u'.typeNameOf y) hop path))
  /-- The base fails for another reason while it is evaluated. -/
  | rootFails {target : Target} {root : String} {e : BindError} (of : target.root? = some root)
      (fails : Fails (getName (perform n) s root) w e) (other : ∀ name, e ≠ .nameResolution name) :
      Fault n s x w target e
  | hopFails {target : Target} {path : Path} {before after : List String} {hop : String} {y : Value}
      {e : BindError} {u : World} (of : target.base? = some path)
      (hops : path.hops = before ++ hop :: after)
      (leads : resolve (perform n) s ⟨path.root, before⟩ w = some (.ok y, u))
      (fails : Fails (getAttr (perform n) y hop) u e) (other : ∀ c, e ≠ .access c) :
      Fault n s x w target e
  /-- The target does not take the value. -/
  | reserved {name : String} (reserved : isReserved name = true) :
      Fault n s x w (.name name) (.inversion (.reserved name))
  | refused {target : Target} {y : Value} {name : String} {c : AccessError} {u : World}
      (comes : Comes n s w target y name u) (refuses : Refuses n y name u c) :
      Fault n s x w target (.inversion (.refused c))
  | item {base : Path} {key y : Value} {c : AccessError} {u : World}
      (leads : resolve (perform n) s base w = some (.ok y, u))
      (refuses : u.setItem y key x = .error (.access c)) :
      Fault n s x w (.item base key) (.inversion (.refused c))
  /-- The target takes the value, and the write handler fails. -/
  | downstream {target : Target} {o : ObjectId} {name : String} {e : BindError} {u : World}
      (comes : Comes n s w target (.object o) name u) (backfires : Backfires n o name x u e) :
      Fault n s x w target e.refused

section
variable {s : Scope} {path : Path} {x : Value} {target : Target}

/-- Where a path leads does not depend on how it is called. -/
theorem follow_ok {self : Performer} {path' : Path} {hops : List String} {v y : Value}
    (run : follow self path hops v w = some (.ok y, u)) :
    follow self path' hops v w = some (.ok y, u) := by
  induction hops generalizing v w with
  | nil => exact run
  | cons hop rest ih =>
    rcases Action.exists_of_bind run with ⟨_, _, same⟩ | ⟨r, u₁, attempted, next⟩
    · cases same
    · obtain ⟨r', read, same⟩ := Action.exists_of_attempt attempted
      cases same
      show (Action.attempt _ >>= _) w = _
      rw [Action.bind_apply, attempted]
      cases r with
      | ok y' => exact ih next
      | error cause => cases cause <;> cases next

/-- Following attributes fails at one of them. -/
theorem fails_follow {self : Performer} {hops : List String} {v : Value} :
    Fails (follow self path hops v) w e ↔ ∃ before hop after y u r u',
      hops = before ++ hop :: after ∧
      follow self path before v w = some (.ok y, u) ∧ getAttr self y hop u = some (.error r, u') ∧
      ((∃ c, r = .access c ∧ e = .inversion (.missingHop (u'.typeNameOf y) hop path)) ∨
        (∀ c, r ≠ .access c) ∧ e = r) := by
  induction hops generalizing v w with
  | nil =>
    constructor
    · rintro ⟨_, run⟩
      cases run
    · rintro ⟨before, _, _, _, _, _, _, hops, _⟩
      cases before <;> cases hops
  | cons hop rest ih =>
    unfold follow
    rw [Fails.attempt]
    constructor
    · rintro ⟨r, u, read, fails⟩
      cases r with
      | ok y =>
        obtain ⟨before, hop', after, z, u₁, r, u', rfl, leads, rest⟩ := ih.1 fails
        refine ⟨hop :: before, hop', after, z, u₁, r, u', rfl, ?_, rest⟩
        show (Action.attempt _ >>= _) w = _
        rw [Action.bind_apply, Action.attempt_apply, read]
        exact leads
      | error cause =>
        refine ⟨[], hop, rest, v, w, cause, u, rfl, rfl, read, ?_⟩
        cases cause with
        | access c => exact .inl ⟨c, rfl, (Fails.throw _).1 fails⟩
        | _ =>
          refine .inr ⟨fun _ same => ?_, (Fails.throw _).1 fails⟩
          cases same
    · rintro ⟨before, hop', after, y, u₁, r, u', hops, leads, read, why⟩
      cases before with
      | nil =>
        cases hops
        cases leads
        refine ⟨_, u', read, ?_⟩
        rcases why with ⟨c, rfl, rfl⟩ | ⟨other, rfl⟩
        · exact (Fails.throw _).2 rfl
        · cases e with
          | access c => exact absurd rfl (other c)
          | _ => exact (Fails.throw _).2 rfl
      | cons first before =>
        cases hops
        rcases Action.exists_of_bind leads with ⟨_, _, same⟩ | ⟨r', u₂, attempted, next⟩
        · cases same
        · obtain ⟨r', read', same⟩ := Action.exists_of_attempt attempted
          cases same
          refine ⟨r', u₂, read', ?_⟩
          cases r' with
          | ok z => exact ih.2 ⟨before, hop', after, y, u₁, r, u', rfl, next, read, why⟩
          | error cause => cases cause <;> cases next

theorem fails_unresolved {α : Type} {a : Action α} :
    Fails (a.mapError BindError.unresolved) w e ↔
      (∃ name, Fails a w (.nameResolution name) ∧ e = .inversion (.unresolvedBase name)) ∨
        Fails a w e ∧ ∀ name, e ≠ .nameResolution name := by
  rw [Fails.mapError]
  constructor
  · rintro ⟨e', fails, rfl⟩
    cases e' with
    | nameResolution name => exact .inl ⟨name, fails, rfl⟩
    | _ => exact .inr ⟨fails, fun _ => nofun⟩
  · rintro (⟨name, fails, rfl⟩ | ⟨fails, other⟩)
    · exact ⟨_, fails, rfl⟩
    · refine ⟨e, fails, ?_⟩
      cases e with
      | nameResolution name => exact absurd rfl (other name)
      | _ => rfl

/-- A path that does not lead anywhere is at fault, whatever should have been done at its end. -/
theorem fails_resolve (of : target.base? = some path) (rooted : target.root? = some path.root)
    (fails : Fails (resolve (perform n) s path) w e) : Fault n s x w target e := by
  rcases Fails.bind.1 fails with failed | ⟨v, u, found, failed⟩
  · rcases fails_unresolved.1 failed with ⟨name, unknown, rfl⟩ | ⟨fails, other⟩
    · exact .root rooted unknown
    · exact .rootFails rooted fails other
  · obtain ⟨before, hop, after, y, u₁, r, u', hops, leads, read, why⟩ := fails_follow.1 failed
    have prefixed : resolve (perform n) s ⟨path.root, before⟩ w = some (.ok y, u₁) := by
      show (Action.mapError _ _ >>= _) w = _
      rw [Action.bind_apply, found]
      exact follow_ok leads
    rcases why with ⟨c, rfl, rfl⟩ | ⟨other, rfl⟩
    · exact .hop of hops prefixed read
    · exact .hopFails of hops prefixed ⟨u', read⟩ other

/-- A fault on the way to the base makes looking for the base fail. -/
theorem resolve_fails_root (unknown : Fails (getName (perform n) s path.root) w e) :
    Fails (resolve (perform n) s path) w e.unresolved :=
  Fails.bind.2 (.inl (Fails.mapError.2 ⟨e, unknown, rfl⟩))

theorem resolve_fails_hop {before after : List String} {hop : String} {y : Value} {r : BindError}
    {u u' : World} (hops : path.hops = before ++ hop :: after)
    (leads : resolve (perform n) s ⟨path.root, before⟩ w = some (.ok y, u))
    (read : getAttr (perform n) y hop u = some (.error r, u'))
    (why : (∃ c, r = .access c ∧ e = .inversion (.missingHop (u'.typeNameOf y) hop path)) ∨
      (∀ c, r ≠ .access c) ∧ e = r) : Fails (resolve (perform n) s path) w e := by
  rcases Action.exists_of_bind leads with ⟨_, _, same⟩ | ⟨v, u₀, found, followed⟩
  · cases same
  · exact Fails.bind.2 (.inr ⟨v, u₀, found,
      fails_follow.2 ⟨before, hop, after, y, u, r, u', hops, follow_ok followed, read, why⟩⟩)

theorem access_of_setItem {y key : Value} (refuses : w.setItem y key x = .error e) :
    ∃ c, e = .access c := by
  unfold World.setItem at refuses
  split at refuses
  · split at refuses
    · cases refuses
    · cases refuses
      exact ⟨_, rfl⟩
  · cases refuses
  · cases refuses
    exact ⟨_, rfl⟩
  · cases refuses
    exact ⟨_, rfl⟩
  · cases refuses
    exact ⟨_, rfl⟩

theorem fails_setItem {y key : Value} :
    Fails (setItem y key x) w e ↔ w.setItem y key x = .error e := by
  unfold Fails setItem
  cases w.setItem y key x <;> simp

/-- What the assignment to an attribute comes to, once refusals are reworded. -/
theorem fails_refused {y : Value} {name : String} :
    Fails ((setAttr (perform n) y name x).mapError BindError.refused) w e ↔
      (∃ c, e = .inversion (.refused c) ∧ Refuses n y name w c) ∨
        ∃ o e', y = .object o ∧ Backfires n o name x w e' ∧ e = e'.refused := by
  rw [Fails.mapError]
  constructor
  · rintro ⟨e', fails, rfl⟩
    rcases fails_setAttr.1 fails with ⟨c, rfl, refuses⟩ | ⟨o, rfl, backfires⟩
    · exact .inl ⟨c, rfl, refuses⟩
    · exact .inr ⟨o, e', rfl, backfires, rfl⟩
  · rintro (⟨c, rfl, refuses⟩ | ⟨o, e', rfl, backfires, rfl⟩)
    · exact ⟨_, fails_setAttr.2 (.inl ⟨c, rfl, refuses⟩), rfl⟩
    · exact ⟨_, fails_setAttr.2 (.inr ⟨o, rfl, backfires⟩), rfl⟩

/-- An assignment at the end of the way fails if it is refused or backfires. -/
theorem fault_of_comes {y : Value} {name : String} (comes : Comes n s w target y name u)
    (fails : Fails ((setAttr (perform n) y name x).mapError BindError.refused) u e) :
    Fault n s x w target e := by
  rcases fails_refused.1 fails with ⟨c, rfl, refuses⟩ | ⟨o, e', rfl, backfires, rfl⟩
  · exact .refused comes refuses
  · exact .downstream comes backfires

theorem assignTarget_call (self : Performer) (function : String) (args : List Value) :
    assignTarget self s x (.call function args) =
      (getName self s function).mapError BindError.unresolved >>= fun f =>
        Action.read (·.reads f) >>= World.assignGiven self x function args := rfl

/-- A call whose function has been found fails by what becomes of its arguments. -/
theorem fails_call {function : String} {args : List Value} :
    Fails (assignTarget (perform n) s x (.call function args)) w e ↔
      Fails ((getName (perform n) s function).mapError BindError.unresolved) w e ∨
        ∃ f u, getName (perform n) s function w = some (.ok f, u) ∧
          Fails (World.assignGiven (perform n) x function args (u.reads f)) u e := by
  rw [assignTarget_call, Fails.bind]
  refine or_congr_right (exists_congr fun f => exists_congr fun u => and_congr ?_ Iff.rfl)
  refine ⟨Action.of_mapError, fun found => ?_⟩
  unfold Action.mapError
  rw [found]

/-- A name fails if it is reserved, or by the attribute that it means. Locals take any value. -/
theorem fails_name {self : Performer} {name : String} :
    Fails (assignTarget self s x (.name name)) w e ↔
      isReserved name = true ∧ e = .inversion (.reserved name) ∨
        isReserved name = false ∧ ∃ o, w.nearest? s.owner name = some o ∧
          Fails ((setAttr self (.object o) name x).mapError BindError.refused) w e := by
  show Fails (if isReserved name = true then Action.throw (.inversion (.reserved name))
    else (setName self s name x).mapError BindError.refused) w e ↔ _
  cases reserved : isReserved name with
  | true => simp
  | false =>
    have sets : Fails ((setName self s name x).mapError BindError.refused) w e ↔
        ∃ o, w.nearest? s.owner name = some o ∧
          Fails ((setAttr self (.object o) name x).mapError BindError.refused) w e := by
      simp only [Fails.mapError]
      unfold setName
      rw [reserved]
      cases nearest : w.nearest? s.owner name with
      | none =>
        refine iff_of_false ?_ (by simp)
        rintro ⟨e', ⟨w', run⟩, -⟩
        simp only [Bool.false_eq_true, if_false, Action.read_bind, nearest] at run
        cases run
      | some o => simp [nearest, setAttr]
    simpa using sets

/-- Where a target comes to an attribute, assigning through it is assigning to that attribute. -/
theorem Comes.fails {y : Value} {name : String} (comes : Comes n s w target y name u)
    (fails : Fails ((setAttr (perform n) y name x).mapError BindError.refused) u e) :
    Fails (assignTarget (perform n) s x target) w e := by
  cases comes with
  | name free nearest =>
    exact fails_name.2 (.inr ⟨free, _, nearest, fails⟩)
  | attr leads => exact Fails.bind.2 (.inr ⟨y, u, leads, fails⟩)
  | call found reads =>
    refine fails_call.2 (.inr ⟨_, u, found, ?_⟩)
    rw [reads]
    exact fails

/-- A call that fails is at fault for its function, for its arguments or for what it comes to. -/
theorem fault_of_call {function : String} {args : List Value}
    (fails : Fails (assignTarget (perform n) s x (.call function args)) w e) :
    Fault n s x w (.call function args) e := by
  rcases fails_call.1 fails with failed | ⟨f, u, found, fails⟩
  · rcases fails_unresolved.1 failed with ⟨name, unknown, rfl⟩ | ⟨fails, other⟩
    · exact .root rfl unknown
    · exact .rootFails rfl fails other
  · cases reads : u.reads f with
    | false =>
      rw [reads] at fails
      obtain rfl := (Fails.throw _).1 fails
      exact .function found reads
    | true =>
      rw [reads] at fails
      unfold World.assignGiven at fails
      rw [if_pos rfl] at fails
      split at fails
      · exact fault_of_comes (.call found reads) fails
      · next other =>
        obtain rfl := (Fails.throw _).1 fails
        exact .arguments found reads other

theorem fault_of_fails (fails : Fails (assignTarget (perform n) s x target) w e) :
    Fault n s x w target e := by
  cases target with
  | name name =>
    rcases fails_name.1 fails with ⟨reserved, rfl⟩ | ⟨free, o, nearest, fails⟩
    · exact .reserved reserved
    · exact fault_of_comes (.name free nearest) fails
  | attr base name =>
    rcases Fails.bind.1 fails with failed | ⟨y, u, leads, fails⟩
    · exact fails_resolve rfl rfl failed
    · exact fault_of_comes (.attr leads) fails
  | item base key =>
    rcases Fails.bind.1 fails with failed | ⟨y, u, leads, fails⟩
    · exact fails_resolve rfl rfl failed
    · obtain ⟨e', stays, rfl⟩ := Fails.mapError.1 fails
      have refuses := fails_setItem.1 stays
      obtain ⟨c, rfl⟩ := access_of_setItem refuses
      exact .item leads refuses
  | call function args => exact fault_of_call fails
  | unsupported shape =>
    obtain rfl := (Fails.throw _).1 fails
    exact .shape

/-- A base that cannot be found is of no use, whatever was to be done with it. -/
theorem fails_of_base (of : target.base? = some path)
    (fails : Fails (resolve (perform n) s path) w e) :
    Fails (assignTarget (perform n) s x target) w e := by
  cases target with
  | attr base name =>
    cases of
    exact Fails.bind.2 (.inl fails)
  | item base key =>
    cases of
    exact Fails.bind.2 (.inl fails)
  | _ => cases of

/-- Nor is a root that means nothing. -/
theorem fails_of_root {root : String} (of : target.root? = some root)
    (fails : Fails (getName (perform n) s root) w e) :
    Fails (assignTarget (perform n) s x target) w e.unresolved := by
  cases target with
  | attr base name =>
    cases of
    exact fails_of_base rfl (resolve_fails_root fails)
  | item base key =>
    cases of
    exact fails_of_base rfl (resolve_fails_root fails)
  | call function args =>
    cases of
    exact fails_call.2 (.inl (Fails.mapError.2 ⟨e, fails, rfl⟩))
  | _ => cases of

theorem Fault.fails (fault : Fault n s x w target e) :
    Fails (assignTarget (perform n) s x target) w e := by
  cases fault with
  | shape => exact (Fails.throw _).2 rfl
  | function found other =>
    refine fails_call.2 (.inr ⟨_, _, found, ?_⟩)
    rw [other]
    exact (Fails.throw _).2 rfl
  | arguments found reads other =>
    refine fails_call.2 (.inr ⟨_, _, found, ?_⟩)
    rw [reads]
    unfold World.assignGiven
    rw [if_pos rfl]
    split
    · exact absurd rfl (other _ _)
    · exact (Fails.throw _).2 rfl
  | root of fails => exact fails_of_root of fails
  | rootFails of fails other =>
    have same : e.unresolved = e := by
      cases e with
      | nameResolution name => exact absurd rfl (other name)
      | _ => rfl
    exact same ▸ fails_of_root of fails
  | hop of hops leads missing =>
    exact fails_of_base of (resolve_fails_hop hops leads missing (.inl ⟨_, rfl, rfl⟩))
  | hopFails of hops leads fails other =>
    obtain ⟨u', read⟩ := fails
    exact fails_of_base of (resolve_fails_hop hops leads read (.inr ⟨other, rfl⟩))
  | reserved reserved => exact fails_name.2 (.inl ⟨reserved, rfl⟩)
  | refused comes refuses => exact comes.fails (fails_refused.2 (.inl ⟨_, rfl, refuses⟩))
  | item leads refuses =>
    refine Fails.bind.2 (.inr ⟨_, _, leads, ?_⟩)
    exact Fails.mapError.2 ⟨_, fails_setItem.2 refuses, rfl⟩
  | downstream comes backfires =>
    exact comes.fails (fails_refused.2 (.inr ⟨_, _, rfl, backfires, rfl⟩))

/-- **An assignment through a target fails exactly for the reasons there are.** -/
theorem fails_assignTarget :
    Fails (assignTarget (perform n) s x target) w e ↔ Fault n s x w target e :=
  ⟨fault_of_fails, Fault.fails⟩

/-- The failure of an inversion is that of its assignment, which is logged on the way. -/
theorem fails_invert : Fails (perform (n + 1) Unit (.invert s target x)) w e ↔
    Fault n s x (w.hold (target.handles ++ x.handles)) target e := by
  rw [← fails_assignTarget, ← Fails.holding]
  show Fails (Action.attempt _ >>= _) w e ↔ _
  rw [Fails.attempt]
  constructor
  · rintro ⟨r, u, run, fails⟩
    cases r with
    | ok _ => exact absurd fails (Fails.pure ())
    | error cause =>
      obtain ⟨_, run'⟩ := fails
      cases run'
      exact ⟨u, run⟩
  · rintro ⟨u, run⟩
    exact ⟨_, u, run, _, rfl⟩

end

/-- **What an inversion makes of failures further down.** When a name, a path or a call comes to an
attribute of an object that takes the value, and the write handler that is then run fails, the
inversion fails as the handler did, unless that was refused an access: this is taken for a refusal
of the target itself, and becomes a failure of the inversion. Apart from these an inversion fails
exactly if there is no inverse, if its base does not resolve or fails while it is evaluated, or if
the target does not take the value. -/
theorem inversion_failures {n : Nat} {s : Scope} {target : Target} {x : Value} {w : World} :
    (∀ {o name u e}, Comes n s (w.hold (target.handles ++ x.handles)) target (.object o) name u →
      Backfires n o name x u e → (∀ c, e ≠ .access c) →
        Fails (perform (n + 1) Unit (.invert s target x)) w e) ∧
    (∀ {o name u c}, Comes n s (w.hold (target.handles ++ x.handles)) target (.object o) name u →
      Backfires n o name x u (.access c) →
        Fails (perform (n + 1) Unit (.invert s target x)) w (.inversion (.refused c))) ∧
    ∀ {e}, Fails (perform (n + 1) Unit (.invert s target x)) w e ↔
      Fault n s x (w.hold (target.handles ++ x.handles)) target e := by
  refine ⟨fun {o name u e} comes backfires other => ?_, fun comes backfires => ?_, fails_invert⟩
  · have same : e.refused = e := by
      cases e with
      | access c => exact absurd rfl (other c)
      | _ => rfl
    exact fails_invert.2 (same ▸ .downstream comes backfires)
  · exact fails_invert.2 (.downstream comes backfires)

namespace thermostat

/-- The body of a handler for one attribute reads an attribute of a number, that of another does not
like the change. -/
def session : Program Unit := do
  let o ← .request (.newObject
    { typeName := "Item", parent := none, attributes := .ofList [("x", .int 0), ("y", .int 0)]
      members := [], constants := .empty, storage := .empty, config := none })
  .request (.keep "t" (.object o))
  let reader ← .request (.newFunction "x_f" ⟨.empty, .empty⟩ fun _ _ =>
    .request (.getAttr (.int 1) "zz"))
  .request (.bind o "x" .notify reader (.given 0))
  let critic ← .request (.newFunction "y_f" ⟨.empty, .empty⟩ fun _ _ =>
    .fail (.evaluation "too warm"))
  .request (.bind o "y" .notify critic (.given 1))
  let l ← .request (.newLayer .empty)
  .request (.keep "s" (.scope ⟨o, l, ⟨.empty, .empty⟩, none, none⟩))

def start : World := (session.run (perform 12) (.initial #[])).elim (.initial #[]) Prod.snd

def scope : Scope := ⟨⟨0⟩, ⟨0⟩, ⟨.empty, .empty⟩, none, none⟩

/-- What becomes of an assignment to an attribute of the object. -/
def assigned (name : String) : Option BindError :=
  (setAttr (perform 11) (.object ⟨0⟩) name (.int 5) (start.hold [])).bind fun x =>
    match x.1 with
    | .error e => some e
    | .ok _ => none

theorem both_fail : assigned "x" = some (.noSuchAttribute "int" "zz") ∧
    assigned "y" = some (.evaluation "too warm") ∧
    ((start.hold []).declared? ⟨0⟩).any (fun d => !d.isConstant "x" && d.hasAttribute "x" &&
      !d.isConstant "y" && d.hasAttribute "y") = true ∧
    (start.hold []).nearest? ⟨0⟩ "x" = some ⟨0⟩ ∧ (start.hold []).nearest? ⟨0⟩ "y" = some ⟨0⟩ := by
  decide +kernel

theorem fails_of_assigned {name : String} {e : BindError} (fails : assigned name = some e) :
    Fails (setAttr (perform 11) (.object ⟨0⟩) name (.int 5)) (start.hold []) e := by
  obtain ⟨⟨r, w'⟩, run, failed⟩ := Option.bind_eq_some_iff.1 fails
  cases r with
  | ok _ => cases failed
  | error e' =>
    cases failed
    exact ⟨w', run⟩

/-- An attribute takes the value, so what fails is the handler. -/
theorem backfires {name : String} {e : BindError} {d : Declared} (fails : assigned name = some e)
    (known : (start.hold []).declared? ⟨0⟩ = some d) (free : d.isConstant name = false)
    (has : d.hasAttribute name = true) :
    Backfires 11 ⟨0⟩ name (.int 5) (start.hold []) e := by
  rcases fails_setAttr.1 (fails_of_assigned fails) with ⟨c, _, refuses⟩ | ⟨_, same, backfires⟩
  · simp [refuses_iff known, free, has] at refuses
  · cases same
    exact backfires

/-- What is wrong with the change comes out as it is. -/
theorem says_too_warm : Fails (perform 12 Unit (.invert scope (.name "y") (.int 5))) start
    (.evaluation "too warm") := by
  obtain ⟨_, fails, there, _, nearest⟩ := both_fail
  obtain ⟨known, allows⟩ := (Option.any_eq_true_iff_get ..).1 there
  obtain ⟨d, known⟩ := Option.isSome_iff_exists.1 known
  simp only [known, Option.get_some, Bool.and_eq_true, Bool.not_eq_true'] at allows
  have comes : Comes 11 scope (start.hold []) (.name "y") (.object ⟨0⟩) "y" (start.hold []) :=
    .name (by decide) nearest
  exact inversion_failures.1 comes (backfires fails known allows.1.2 allows.2) fun _ => nofun

/-- The object takes the value for `x`, and the handler fails to read an attribute of a number. That
is not what the inversion fails with: it says that the object does not take the value. -/
theorem blames_target :
    Comes 11 scope (start.hold []) (.name "x") (.object ⟨0⟩) "x" (start.hold []) ∧
    Backfires 11 ⟨0⟩ "x" (.int 5) (start.hold []) (.noSuchAttribute "int" "zz") ∧
    ¬Fails (perform 12 Unit (.invert scope (.name "x") (.int 5))) start
      (.noSuchAttribute "int" "zz") ∧
    Fails (perform 12 Unit (.invert scope (.name "x") (.int 5))) start
      (.inversion (.refused (.noSuchAttribute "int" "zz"))) := by
  obtain ⟨fails, _, there, nearest, _⟩ := both_fail
  obtain ⟨known, allows⟩ := (Option.any_eq_true_iff_get ..).1 there
  obtain ⟨d, known⟩ := Option.isSome_iff_exists.1 known
  simp only [known, Option.get_some, Bool.and_eq_true, Bool.not_eq_true'] at allows
  have comes : Comes 11 scope (start.hold []) (.name "x") (.object ⟨0⟩) "x" (start.hold []) :=
    .name (by decide) nearest
  have handler := backfires fails known allows.1.1.1 allows.1.1.2
  have blames : Fails (perform 12 Unit (.invert scope (.name "x") (.int 5))) start
      (.inversion (.refused (.noSuchAttribute "int" "zz"))) :=
    fails_invert.2 (.downstream comes handler)
  refine ⟨comes, handler, fun passes => ?_, blames⟩
  obtain ⟨_, run⟩ := blames
  obtain ⟨_, run'⟩ := passes
  cases run.symm.trans run'

end thermostat

end LiveBinding
