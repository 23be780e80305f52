import LiveBinding.Proofs.Notification

/-! Populating objects.

Initialization goes through the names that an engine binds, and reads the attributes that have a
reader but no value. What a read does besides is up to whoever uses these rules. -/
namespace LiveBinding

/-- Evaluates what is bound and has no value, one object after the other. -/
def populateEach : List ObjectId → Program Unit
  | [] => pure ()
  | o :: rest => do
    Program.request (.populate o)
    populateEach rest

namespace World
variable {start w w' w₁ : World} {x : Dependency} {o : ObjectId} {e : EngineRef}

theorem Extends.hasReader_iff (grows : start.Extends w)
    (engine : start.engineOf? x.object = some e) :
    (w.engine e).hasReader x.name = true ↔ ∃ h, start.handlerOf? x = some (e, h) := by
  rw [Engine.hasReader, grows.bindings]
  constructor
  · intro reads
    cases binding : (start.engine e).bindings.get? x.name with
    | none =>
      rw [binding] at reads
      cases reads
    | some b =>
      rw [binding] at reads
      obtain ⟨h, read⟩ := Option.isSome_iff_exists.1 reads
      exact ⟨h, handlerOf?_eq_some.2 ⟨engine, by rw [binding]; exact read⟩⟩
  · rintro ⟨h, found⟩
    obtain ⟨b, binding, read⟩ := Option.bind_eq_some_iff.1 (handlerOf?_eq_some.1 found).2
    simp only [binding, read]
    rfl

/-- A bound attribute is among the names that its engine binds. -/
theorem Extends.mem_names (grows : start.Extends w) {h : Handler}
    (handler : start.handlerOf? x = some (e, h)) : x.name ∈ (w.engine e).names := by
  obtain ⟨b, binding, _⟩ := Option.bind_eq_some_iff.1 (handlerOf?_eq_some.1 handler).2
  rw [← grows.bindings] at binding
  exact List.mem_mergeSort.2 (List.mem_map.2 ⟨_, Dict.get?_eq_some.1 binding, rfl⟩)

/-- An attribute that has a value still has one. -/
def Retains (w w' : World) : Prop := ∀ ⦃d⦄, (w.valueOf? d).isSome → (w'.valueOf? d).isSome

theorem Retains.trans (first : w.Retains w₁) (next : w₁.Retains w') : w.Retains w' :=
  fun _ set => next (first set)

theorem Slips.retains {n : Nat} (slips : w.Slips n w') : w.Retains w' := fun d set => by
  rw [slips.slight.valueOf?]
  exact set

/-- In such worlds a bound attribute gets a value when it is read for the first time. -/
structure Fillable (start : World) (Q : World → Prop) : Prop where
  grows : ∀ {w}, Q w → start.Extends w
  stable : ∀ {w w'}, w.Slips 0 w' → Q w → Q w'
  reads : ∀ {x w}, start.Bound x → Q w → w.valueOf? x = none →
    Leads w (fun self => readAttr self x.object x.name) fun r w' =>
      (∃ v, r = .ok v) ∧ Q w' ∧ w.Retains w' ∧ (w'.valueOf? x).isSome

variable {Q : World → Prop}

theorem populateAll_leads (fillable : Fillable start Q) (engine : start.engineOf? o = some e)
    (names : List String) (here : Q w) :
    Leads w (fun self => populateAll self o e names) fun r w' =>
      r = .ok () ∧ Q w' ∧ w.Retains w' ∧
        ∀ name ∈ names, start.Bound ⟨o, name⟩ → (w'.valueOf? ⟨o, name⟩).isSome := by
  induction names generalizing w with
  | nil => exact Leads.of_eq (fun _ => rfl) ⟨rfl, here, fun _ => id, nofun⟩
  | cons name rest ih =>
    have others {w₁ : World} (here : Q w₁) (retains : w.Retains w₁)
        (set : start.Bound ⟨o, name⟩ → (w₁.valueOf? ⟨o, name⟩).isSome) :
        Leads w₁ (fun self => populateAll self o e rest) fun r w' =>
          r = .ok () ∧ Q w' ∧ w.Retains w' ∧
            ∀ a ∈ name :: rest, start.Bound ⟨o, a⟩ → (w'.valueOf? ⟨o, a⟩).isSome := by
      refine (ih here).mono ?_
      rintro r w' ⟨rfl, there, next, sets⟩
      refine ⟨rfl, there, retains.trans next, fun a mem bound => ?_⟩
      rcases List.mem_cons.1 mem with rfl | mem
      · exact next (set bound)
      · exact sets a mem bound
    have reader := (fillable.grows here).hasReader_iff (x := ⟨o, name⟩) engine
    unfold populateAll
    refine Leads.read (Leads.read ?_)
    by_cases due : ((w.engine e).hasReader name && (w.stored? o name).isNone) = true
    · obtain ⟨reads, unset⟩ := Bool.and_eq_true_iff.1 due
      obtain ⟨h, handler⟩ := reader.1 reads
      simp only [due, if_true]
      refine Leads.seq ((fillable.reads ⟨e, h, handler⟩ here
        (Option.isNone_iff_eq_none.1 unset)).mono ?_)
      rintro r w₁ ⟨⟨v, rfl⟩, there, retains, set⟩
      exact ⟨v, rfl, others there retains fun _ => set⟩
    · simp only [due]
      refine others here (fun _ => id) fun ⟨e', h, handler⟩ => ?_
      obtain rfl : e' = e :=
        Option.some.inj ((handlerOf?_eq_some.1 handler).1.symm.trans engine)
      rw [reader.2 ⟨h, handler⟩, Bool.true_and, Option.isNone_iff_eq_none] at due
      exact Option.isSome_iff_ne_none.2 due

/-- After an object has been populated, its bound attributes have values. -/
theorem populate_leads (fillable : Fillable start Q) (o : ObjectId) (here : Q w) :
    Leads w (fun self => populate self o) fun r w' =>
      r = .ok () ∧ Q w' ∧ w.Retains w' ∧
        ∀ x, start.Bound x → x.object = o → (w'.valueOf? x).isSome := by
  have same := (fillable.grows here).engineOf? o
  unfold populate
  refine Leads.read ?_
  cases engine : start.engineOf? o with
  | none =>
    rw [engine] at same
    rw [same]
    refine Leads.of_eq (fun _ => rfl) ⟨rfl, here, fun _ => id, ?_⟩
    rintro x ⟨e, h, handler⟩ rfl
    rw [(handlerOf?_eq_some.1 handler).1] at engine
    cases engine
  | some e =>
    rw [engine] at same
    rw [same]
    refine Leads.read (holding_leads (n := 0) _ ?_ fun {w₁} enter _ => ?_)
    · rintro w₁ w₂ slips ⟨there, retains, sets⟩
      exact ⟨fillable.stable slips there, retains.trans slips.retains,
        fun x bound is => slips.retains (sets x bound is)⟩
    · refine (populateAll_leads fillable engine (w.engine e).names
        (fillable.stable enter here)).mono ?_
      rintro r w' ⟨rfl, there, retains, sets⟩
      refine ⟨rfl, there, enter.retains.trans retains, ?_⟩
      rintro ⟨_, name⟩ ⟨e', h, handler⟩ rfl
      obtain rfl : e' = e :=
        Option.some.inj ((handlerOf?_eq_some.1 handler).1.symm.trans engine)
      exact sets name ((fillable.grows here).mem_names handler) ⟨e', h, handler⟩

theorem populateEach_leads (fillable : Fillable start Q) (os : List ObjectId) (here : Q w) :
    Leads w (fun self => (populateEach os).run self) fun r w' =>
      r = .ok () ∧ Q w' ∧ w.Retains w' ∧
        ∀ x, start.Bound x → x.object ∈ os → (w'.valueOf? x).isSome := by
  induction os generalizing w with
  | nil => exact Leads.done ⟨rfl, here, fun _ => id, nofun⟩
  | cons o rest ih =>
    refine Leads.ask (Leads.request ((populate_leads fillable o here).mono ?_))
    rintro r w₁ ⟨rfl, there, first, sets⟩
    refine (ih there).mono ?_
    rintro r w' ⟨rfl, there, next, others⟩
    refine ⟨rfl, there, first.trans next, fun x bound mem => ?_⟩
    rcases List.mem_cons.1 mem with here | later
    · exact next (sets x bound here)
    · exact others x bound later

/-! ### Nothing left to evaluate -/

theorem populateAll_still {names : List String} (self : Performer)
    (set : ∀ name ∈ names, (w.engine e).hasReader name = true → (w.stored? o name).isSome) :
    populateAll self o e names w = some (.ok (), w) := by
  induction names with
  | nil => rfl
  | cons name rest ih =>
    have done : ((w.engine e).hasReader name && (w.stored? o name).isNone) = false := by
      cases reader : (w.engine e).hasReader name with
      | false => rfl
      | true =>
        rw [Bool.true_and, Option.isNone_eq_false_iff]
        exact set name List.mem_cons_self reader
    have others := ih fun a mem => set a (List.mem_cons_of_mem _ mem)
    simp only [populateAll, Action.read_bind, done]
    exact others

/-- Where every bound attribute has a value, populating does nothing. -/
theorem populate_still (self : Performer) (set : ∀ x, w.Bound x → (w.valueOf? x).isSome)
    (o : ObjectId) : populate self o w = some (.ok (), w) := by
  cases engine : w.engineOf? o with
  | none =>
    simp only [populate, Action.read_bind, engine]
    rfl
  | some e =>
    let w₁ := {w with held := [Handle.object o, .engine e] ++ w.held}
    have still : populateAll self o e (w.engine e).names w₁ = some (.ok (), w₁) := by
      refine populateAll_still self fun name _ reader => ?_
      obtain ⟨h, handler⟩ :=
        ((Extends.refl w).hasReader_iff (x := ⟨o, name⟩) engine).1 reader
      exact set ⟨o, name⟩ ⟨e, h, handler⟩
    simp only [populate, Action.read_bind, engine]
    show Action.holding _ _ w = _
    rw [Action.holding, Action.within_apply, still]

end World

end LiveBinding
