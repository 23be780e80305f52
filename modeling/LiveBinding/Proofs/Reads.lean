import LiveBinding.Proofs.Route
import LiveBinding.Proofs.Invariant

/-! What the reads of a body come to.

A body looks up names, loads attributes and calls `getattr`. An attribute that is bound and
has no value yet is evaluated on the way; everything else is there at once. Either way the
read gives what is to be found then, and puts it on the tracer's record. -/
namespace LiveBinding.Network
variable {N : Network} {w w' w₀ w₁ : World} {P : Dependency → Prop} {x d : Dependency}
  {e : EngineRef} {h : Handler} {k n : Nat}

/-- An evaluation goes on: attributes get first values, and things are in order. -/
structure Advances (N : Network) (n k : Nat) (P : Dependency → Prop) (w w' : World) : Prop where
  fills : N.Fills n k w w'
  inv : N.Inv w' P
  depth : w'.depth = w.depth

namespace Advances

theorem of_slight (sound : N.Sound) (inv : N.Inv w P) (slight : w.Slight n w')
    (depth : w'.depth = w.depth) : N.Advances n k P w w' :=
  ⟨.of_slight slight, inv.slight sound slight, depth⟩

theorem refl (inv : N.Inv w P) : N.Advances n k P w w := ⟨.of_slight (.refl w), inv, rfl⟩

theorem trans (first : N.Advances n k P w₀ w₁) (next : N.Advances n k P w₁ w) :
    N.Advances n k P w₀ w :=
  ⟨first.fills.trans next.fills, next.inv, next.depth.trans first.depth⟩

theorem mono {m j : Nat} (advances : N.Advances n k P w w') (fewer : m ≤ n) (higher : k ≤ j) :
    N.Advances m j P w w' :=
  ⟨advances.fills.mono fewer higher, advances.inv, advances.depth⟩

end Advances

/-- Not more than `b` bodies deep, whatever is below rank `k` and has no value yet can be
evaluated. -/
def Roomy (N : Network) (b k : Nat) (w : World) : Prop :=
  ∃ j, w.depth + j ≤ b ∧
    ∀ y, N.start.Bound y → w.valueOf? y = none → N.rank y < k → N.rank y < j

theorem Roomy.mono {b i : Nat} (roomy : N.Roomy b k w)
    (stored : ∀ {d}, (w.valueOf? d).isSome → (w'.valueOf? d).isSome) (depth : w'.depth = w.depth)
    (lower : i ≤ k) : N.Roomy b i w' := by
  obtain ⟨j, deep, unset⟩ := roomy
  refine ⟨j, depth ▸ deep, fun y bound none below =>
    unset y bound ?_ (Nat.lt_of_lt_of_le below lower)⟩
  by_contra some
  have set := stored (Option.isSome_iff_ne_none.2 some)
  rw [none] at set
  cases set

theorem Roomy.advance {b i : Nat} (roomy : N.Roomy b k w) (advances : N.Advances n i P w w') :
    N.Roomy b k w' := roomy.mono advances.fills.isSome advances.depth (Nat.le_refl k)

/-- There is room for one body more than the body has that reads the attribute. -/
theorem Roomy.nested (roomy : N.Roomy (N.room + 1) k w) (bound : N.start.Bound d)
    (unset : w.valueOf? d = none) (lower : N.rank d < k) : N.Roomy N.room (N.rank d) w := by
  obtain ⟨j, deep, below⟩ := roomy
  refine ⟨N.rank d, ?_, fun _ _ _ lower => lower⟩
  have nested := below d bound unset lower
  omega

/-- Bound attributes below a rank get their first values when they are updated. -/
def Evaluable (N : Network) (k : Nat) : Prop :=
  ∀ ⦃y e h w P⦄, N.start.handlerOf? y = some (e, h) → N.rank y < k → N.Inv w P →
    w.valueOf? y = none → N.Roomy N.room (N.rank y) w →
    Leads w (fun self => Engine.update self e y.object y.name) fun r w' =>
      r = .ok () ∧ N.Advances w.tracers.size k P w w' ∧ (w'.valueOf? y).isSome

/-! ### Reading an attribute -/

/-- Reading an attribute gives the value it has then. -/
theorem readAttr_leads (sound : N.Sound) (ready : N.Evaluable k) (inv : N.Inv w P)
    (is : N.start.Attribute d) (lower : N.start.Bound d → N.rank d < k)
    (room : N.start.Bound d → w.valueOf? d = none → N.Roomy N.room (N.rank d) w) :
    Leads w (fun self => readAttr self d.object d.name) fun r w' =>
      r = .ok (some (w'.valuation d)) ∧ N.Advances w.tracers.size k P w w' ∧
        (N.start.Bound d → (w'.valueOf? d).isSome) ∧ (N.Evaluated w → w' = w) := by
  cases value : w.valueOf? d with
  | some v =>
    refine Leads.of_eq (World.readAttr_stored value) ⟨?_, .refl inv, fun _ => ?_, fun _ => rfl⟩
    · rw [World.valuation, value]
      rfl
    · rw [value]
      rfl
  | none =>
    have is' := inv.grows.attribute.2 is
    by_cases bound : N.start.Bound d
    · obtain ⟨e, h, handler⟩ := bound
      let w₁ := {w with held := [Handle.object d.object] ++ w.held}
      have enter : w.Slight w.tracers.size w₁ := w.slight_progress _ w.depth w.limit _
      refine (World.readAttr_bound (Q := fun w' => N.Advances w.tracers.size k P w w' ∧
        (w'.valueOf? d).isSome) is' value ((inv.grows.handlerOf? d).trans handler)
          ((ready handler (lower ⟨e, h, handler⟩) (inv.slight sound enter) value
            (room ⟨e, h, handler⟩ value)).mono ?_)).mono ?_
      · rintro r w₂ ⟨rfl, advances, set⟩
        have leave := w₂.slight_progress w.tracers.size w₂.depth w₂.limit w.held
        exact ⟨rfl, ((Advances.of_slight sound inv enter rfl).trans advances).trans
          (.of_slight sound advances.inv leave rfl), set⟩
      · rintro r w' ⟨rfl, advances, set⟩
        refine ⟨rfl, advances, fun _ => set, fun evaluated => ?_⟩
        have some := evaluated ⟨e, h, handler⟩
        rw [value] at some
        cases some
    · have free : w.handlerOf? d = none := by
        rw [inv.grows.handlerOf?, Option.eq_none_iff_forall_ne_some]
        exact fun handler found => bound ⟨_, _, found⟩
      refine Leads.of_eq (World.readAttr_free is' value free) ⟨?_, .refl inv, fun is =>
        absurd is bound, fun _ => rfl⟩
      rw [World.valuation, value]
      rfl

/-! ### Reading what a body reads -/

/-- What has been found is the answer, and is recorded. -/
structure Finds (N : Network) (k : Nat) (t : TracerRef) (P : Dependency → Prop) (f : Found)
    (w : World) (r : Except BindError Value) (w' : World) : Prop where
  answer : r = f.answerIn w'.valuation
  advances : N.Advances t.index k P w w'
  set : ∀ d, f = .stored d → N.start.Bound d → (w'.valueOf? d).isSome
  recorded : ∀ d, d ∈ (w'.tracer t).dependencies ↔
    d ∈ (w.tracer t).dependencies ∨ f.recorded = some d
  calm : N.Evaluated w → w.Slips t.index w'

/-- What has been found is the answer, and tracers are as they were. -/
structure Gets (N : Network) (k : Nat) (P : Dependency → Prop) (f : Found) (w : World)
    (r : Except BindError Value) (w' : World) : Prop where
  answer : r = f.answerIn w'.valuation
  advances : N.Advances w.tracers.size k P w w'
  set : ∀ d, f = .stored d → N.start.Bound d → (w'.valueOf? d).isSome
  calm : N.Evaluated w → w' = w

namespace Gets
variable {f : Found} {r : Except BindError Value} {t : TracerRef}

/-- Nothing has happened. -/
theorem at_once (inv : N.Inv w P) (r : Except BindError Value) (recorded : Option Dependency) :
    N.Gets k P (.answer r recorded) w r w := ⟨rfl, .refl inv, nofun, fun _ => rfl⟩

theorem hold (sound : N.Sound) (inv : N.Inv w P) {held : List Handle}
    (gets : N.Gets k P f {w with held := held} r w') :
    N.Gets k P f w r {w' with held := w.held} where
  answer := gets.answer
  advances := by
    have enter := w.slight_progress w.tracers.size w.depth w.limit held
    have leave := w'.slight_progress w.tracers.size w'.depth w'.limit w.held
    exact ((Advances.of_slight sound inv enter rfl).trans gets.advances).trans
      (.of_slight sound gets.advances.inv leave rfl)
  set := gets.set
  calm evaluated := by rw [gets.calm evaluated]

theorem silent (gets : N.Gets k P f w r w') (inside : t.index < w.tracers.size)
    (none : f.recorded = none) : N.Finds k t P f w r w' where
  answer := gets.answer
  advances := gets.advances.mono (Nat.le_of_lt inside) (Nat.le_refl k)
  set := gets.set
  recorded d := by
    rw [gets.advances.fills.tracers t inside, none]
    simp
  calm evaluated := by
    rw [gets.calm evaluated]
    exact .refl w

theorem record (sound : N.Sound) (gets : N.Gets k P f w r w') (inside : t.index < w.tracers.size)
    (place : f.recorded = some d) : N.Finds k t P f w r (w'.modifyTracer t (·.record d)) where
  answer := gets.answer
  advances := (gets.advances.mono (Nat.le_of_lt inside) (Nat.le_refl k)).trans
    (.of_slight sound gets.advances.inv (w'.slight_record t d) rfl)
  set := gets.set
  recorded d' := by
    rw [World.mem_dependencies_record (Nat.lt_of_lt_of_le inside gets.advances.fills.more),
      gets.advances.fills.tracers t inside, place, Option.some.injEq, eq_comm (a := d)]
  calm evaluated := by
    rw [gets.calm evaluated]
    exact ⟨w.slight_record t d, rfl, rfl⟩

end Gets

/-- Reading an attribute of a value gives what is to be found. -/
theorem getAttr_leads (sound : N.Sound) (ready : N.Evaluable k) (inv : N.Inv w P) {v : Value}
    {name : String} {f : Found} (found : w.findAttr v name = some f)
    (lower : ∀ d, f = .stored d → N.start.Bound d → N.rank d < k)
    (room : N.Roomy (N.room + 1) k w) :
    Leads w (fun self => getAttr self v name) (N.Gets k P f w) := by
  unfold World.findAttr at found
  cases v with
  | object o =>
    dsimp only at found
    cases entity : w.entity? o with
    | none =>
      rw [entity] at found
      cases found
    | some y =>
      rw [entity] at found
      cases y with
      | view p t => cases found
      | change c =>
        dsimp only at found
        cases value : c.attribute? name with
        | some u =>
          rw [value] at found
          cases found
          refine Leads.of_eq (fun self => ?_) (.at_once inv (.ok u) _)
          simp only [getAttr, readAttr, Action.bind_assoc, Action.read_bind, entity, value]
          rfl
        | none =>
          rw [value] at found
          cases found
          refine Leads.of_eq (fun self => ?_) (.at_once inv (.error _) _)
          simp only [getAttr, readAttr, Action.bind_assoc, Action.read_bind, entity, value]
          simp only [Action.pure_bind, Action.read_bind, World.typeName, entity]
          rfl
      | declared y =>
        dsimp only at found
        have known := (w.declared?_eq_some).2 entity
        cases has : y.hasAttribute name with
        | true =>
          rw [has] at found
          cases found
          have is : N.start.Attribute ⟨o, name⟩ := inv.grows.attribute.1 ⟨y, known, has⟩
          refine Leads.seq ((readAttr_leads sound ready inv is (lower _ rfl) fun bound unset =>
            room.nested bound unset (lower _ rfl bound)).mono ?_)
          rintro r w' ⟨rfl, advances, set, calm⟩
          exact ⟨_, rfl, Leads.pure ⟨rfl, advances, fun d same => by cases same; exact set, calm⟩⟩
        | false =>
          rw [has] at found
          cases found
          refine Leads.of_eq (fun self => ?_) (.at_once inv (.error _) _)
          have unset : y.values.get? name = none := by
            rw [Declared.hasAttribute, Bool.or_eq_false_iff] at has
            simpa [Dict.contains] using has.1
          have run : readAttr self o name w = some (.ok none, w) := by
            simp only [readAttr, Action.read_bind, entity]
            show Action.holding [.object o] (readDeclared self o y name) w = _
            rw [Action.holding, Action.within_apply]
            simp only [readDeclared, unset, has]
            rfl
          show (readAttr self o name >>= _) w = _
          rw [Action.bind_apply, run]
          simp only [Action.read_bind, World.typeName, entity]
          rfl
  | _ =>
    cases found
    exact Leads.of_eq (fun _ => rfl) (.at_once inv (.error _) _)

theorem orElse_of_succeeds {f : Found} (place : Option Dependency) (fallback : Option Value)
    (succeeds : ∀ σ, ∃ u, f.answerIn σ = .ok u) : f.orElse place fallback = f := by
  unfold Found.orElse
  split
  · obtain ⟨u, answer⟩ := succeeds fun _ => .null
    cases answer
  · rfl

/-- What succeeds is recorded, and what fails is not. -/
theorem recorded_of_findAttr {v : Value} {name : String} {f : Found}
    (found : w.findAttr v name = some f) :
    (∃ cause, f = .answer (.error (.access cause)) none) ∨
      ∃ o, v = .object o ∧ f.recorded = some ⟨o, name⟩ ∧ ∀ σ, ∃ u, f.answerIn σ = .ok u := by
  unfold World.findAttr at found
  split at found
  · next o =>
    split at found
    · split at found
      · cases found
        exact .inr ⟨o, rfl, rfl, fun σ => ⟨_, rfl⟩⟩
      · cases found
        exact .inl ⟨_, rfl⟩
    · split at found
      · cases found
        exact .inr ⟨o, rfl, rfl, fun σ => ⟨_, rfl⟩⟩
      · cases found
        exact .inl ⟨_, rfl⟩
    · cases found
  · cases found
    exact .inl ⟨_, rfl⟩

theorem recorded_of_orElse {v : Value} {name : String} {f : Found}
    (found : w.findAttr v name = some f) (fallback : Option Value) :
    (∃ cause, f.orElse (v.place? name) fallback = .answer (.error (.access cause)) none) ∨
      (f.orElse (v.place? name) fallback).recorded = v.place? name ∧
        ∀ σ, ∃ u, (f.orElse (v.place? name) fallback).answerIn σ = .ok u := by
  rcases recorded_of_findAttr found with ⟨cause, rfl⟩ | ⟨o, rfl, place, succeeds⟩
  · cases fallback with
    | some x => exact .inr ⟨rfl, fun _ => ⟨x, rfl⟩⟩
    | none => exact .inl ⟨cause, rfl⟩
  · refine .inr ?_
    rw [orElse_of_succeeds _ _ fun σ => succeeds σ]
    exact ⟨place, succeeds⟩

theorem loadAttr_leads (sound : N.Sound) (ready : N.Evaluable k) (inv : N.Inv w P) {v : Value}
    {name : String} {f : Found} (found : w.findAttr v name = some f)
    (lower : ∀ d, f = .stored d → N.start.Bound d → N.rank d < k)
    (room : N.Roomy (N.room + 1) k w) {t : TracerRef}
    (inside : t.index < w.tracers.size) :
    Leads w (fun self => loadAttr self t v name) (N.Finds k t P f w) := by
  have enter := w.slight_progress w.tracers.size w.depth w.limit
    ((.tracer t :: v.handles) ++ w.held)
  refine Leads.bind (Leads.holding ((getAttr_leads sound ready (inv.slight sound enter) found
    lower room).mono fun r w' gets => ?_))
  replace gets := gets.hold sound inv
  rcases recorded_of_findAttr found with ⟨cause, rfl⟩ | ⟨o, rfl, place, succeeds⟩
  · cases gets.answer
    exact gets.silent inside rfl
  · obtain ⟨u, answer⟩ := succeeds w'.valuation
    obtain rfl : r = .ok u := gets.answer.trans answer
    exact Leads.of_eq (fun _ => rfl) (gets.record sound inside place)

/-- The code of `getattr` reads the attribute, and answers with the fallback, if there is one,
when the access is refused. -/
theorem run_getattr (self : Performer) (v : Value) (name : String) (fallback : Option Value) :
    (Builtin.getattr (v :: .str name :: fallback.toList)).run self =
      (self _ (.getAttr v name)).attempt >>= fun
        | .ok x => Action.succeed x
        | .error (.access cause) =>
          match fallback with
          | some x => Action.succeed x
          | none => Action.throw (.access cause)
        | .error e => Action.throw e := by
  have code : Builtin.getattr (v :: .str name :: fallback.toList) =
      (Program.request (.getAttr v name)).attempt >>= fun
        | .ok x => .done (.ok x)
        | .error (.access cause) =>
          match fallback with
          | some x => .done (.ok x)
          | none => .done (.error (.access cause))
        | .error e => .done (.error e) := by
    cases fallback <;> rfl
  rw [code, Program.run_bind, Program.run_attempt, Program.run_request]
  refine congrArg _ (funext fun r => ?_)
  rcases r with (_ | _ | cause | _ | _ | _) | x
  case error.access => cases fallback <;> rfl
  all_goals rfl

theorem getattr_leads (sound : N.Sound) (ready : N.Evaluable k) (inv : N.Inv w P) {v : Value}
    {name : String} {fallback : Option Value} {f : Found} (found : w.findAttr v name = some f)
    (lower : ∀ d, f = .stored d → N.start.Bound d → N.rank d < k)
    (room : N.Roomy (N.room + 1) k w) :
    Leads w (fun self => (Builtin.getattr (v :: .str name :: fallback.toList)).run self)
      (N.Gets k P (f.orElse (v.place? name) fallback) w) := by
  have asked : Leads w (fun self => self Value (.getAttr v name)) (N.Gets k P f w) :=
    Leads.request (getAttr_leads sound ready inv found lower room)
  simp only [run_getattr]
  refine Leads.bind (Leads.attempt (asked.mono fun r w' gets => ?_))
  rcases recorded_of_findAttr found with ⟨cause, rfl⟩ | ⟨o, rfl, place, succeeds⟩
  · cases gets.answer
    cases fallback with
    | some x => exact Leads.of_eq (fun _ => rfl) ⟨rfl, gets.advances, nofun, gets.calm⟩
    | none => exact Leads.of_eq (fun _ => rfl) gets
  · obtain ⟨u, answer⟩ := succeeds w'.valuation
    obtain rfl : r = .ok u := gets.answer.trans answer
    rw [orElse_of_succeeds _ _ succeeds]
    exact Leads.of_eq (fun _ => rfl) gets

theorem callTraced_leads (sound : N.Sound) (ready : N.Evaluable k) (inv : N.Inv w P) {v : Value}
    {name : String} {fallback : Option Value} {f : Found} (found : w.findAttr v name = some f)
    (lower : ∀ d, f = .stored d → N.start.Bound d → N.rank d < k)
    (room : N.Roomy (N.room + 1) k w) {t : TracerRef}
    (inside : t.index < w.tracers.size) :
    Leads w
      (fun self => callTraced self t (.native getattrRef) (v :: .str name :: fallback.toList))
      (N.Finds k t P (f.orElse (v.place? name) fallback) w) := by
  let args := v :: .str name :: fallback.toList
  let held := (Handle.native getattrRef :: args.flatMap Value.handles) ++ ([.tracer t] ++ w.held)
  have enter := w.slight_progress w.tracers.size w.depth w.limit held
  have code : w.natives[getattrRef.index]? = some ⟨getattrName, [], Builtin.getattr⟩ :=
    inv.grows.natives sound.getattr
  have called : Leads w (fun self => Action.holding [.tracer t]
      (callValue self (.native getattrRef) args))
      (N.Gets k P (f.orElse (v.place? name) fallback) w) := by
    refine Leads.holding (Leads.holding ?_)
    refine Leads.congr (b := fun self => (Builtin.getattr args).run self) (fun self => ?_) ?_
    · simp only [runNative, code]
    · refine (getattr_leads sound ready (inv.slight sound enter) found lower room).mono ?_
      intro r w' gets
      show N.Gets k P _ w r {w' with held := w.held}
      exact gets.hold sound inv
  refine Leads.bind (called.mono fun r w' gets => ?_)
  have there : w'.nativeName getattrRef = getattrName := by
    rw [World.nativeName, gets.advances.fills.grows.natives code]
  rcases recorded_of_orElse found fallback with ⟨cause, failed⟩ | ⟨place, succeeds⟩
  · rw [failed] at gets ⊢
    cases gets.answer
    exact gets.silent inside rfl
  · obtain ⟨u, answer⟩ := succeeds w'.valuation
    obtain rfl : r = .ok u := gets.answer.trans answer
    cases v with
    | object o =>
      refine Leads.of_eq (fun self => ?_) (gets.record sound inside place)
      show (if w'.nativeName getattrRef =
        getattrName then (do record t o name; pure u) else pure u : Action Value) w' = _
      rw [if_pos there]
      rfl
    | _ => exact Leads.of_eq (fun _ => rfl) (gets.silent inside place)

/-- The nearest attribute of an owner chain is read and recorded. -/
theorem loadName_leads (sound : N.Sound) (ready : N.Evaluable k) (inv : N.Inv w P)
    {owner o : ObjectId} {name : String} {t : TracerRef} (near : w.nearest? owner name = some o)
    (is : N.start.Attribute ⟨o, name⟩) (lower : N.start.Bound ⟨o, name⟩ → N.rank ⟨o, name⟩ < k)
    (room : N.Roomy (N.room + 1) k w) (running : t.index < w.tracers.size) :
    Leads w (fun self => loadName self owner name (some t)) fun r w' =>
      ∃ v, r = .ok (some v) ∧ N.Finds k t P (.stored ⟨o, name⟩) w (.ok v) w' := by
  have asked := Leads.request (q := .readAttr o name)
    (readAttr_leads sound ready inv is lower fun bound unset =>
      room.nested bound unset (lower bound))
  unfold loadName
  refine Leads.read ?_
  simp only [near]
  refine Leads.seq (asked.mono ?_)
  rintro r w' ⟨rfl, advances, set, calm⟩
  have gets : N.Gets k P (.stored ⟨o, name⟩) w (.ok (w'.valuation ⟨o, name⟩)) w' :=
    ⟨rfl, advances, fun d same => by cases same; exact set, calm⟩
  exact ⟨_, rfl, Leads.of_eq (fun _ => rfl) ⟨_, rfl, gets.record sound running rfl⟩⟩

theorem getName_leads (sound : N.Sound) (ready : N.Evaluable k) (inv : N.Inv w P)
    {c : Surroundings} {s : Scope} {t : TracerRef} (inside : Inside w c s t) {name : String}
    {y : Declared} (here : w.declared? c.owner = some y) (plain : isReserved name = false)
    (lower : ∀ d, w.findName c name = .stored d → N.start.Bound d → N.rank d < k)
    (room : N.Roomy (N.room + 1) k w) :
    Leads w (fun self => getName self s name) (N.Finds k t P (w.findName c name) w) := by
  have reserved : Reserved.ofName? name = none := by
    simpa [isReserved] using plain
  have layer : w.layer s.locals = c.locals := by
    rw [World.layer, inside.locals]
    rfl
  have quiet {r : Except BindError Value} : N.Finds k t P (.answer r none) w r w :=
    (Gets.at_once inv r none).silent inside.running rfl
  unfold World.findName at lower ⊢
  cases found : c.locals.get? name with
  | some v =>
    refine Leads.of_eq (fun self => ?_) quiet
    simp only [getName, reserved, Action.pure_bind, Action.read_bind, layer, found]
    rfl
  | none =>
    refine Leads.congr (b := fun self => outerName self s name) (fun self => ?_) ?_
    · simp only [getName, reserved, Action.pure_bind, Action.read_bind, layer, found]
    rw [found] at lower
    unfold outerName
    rw [inside.owner, inside.tracer, inside.environment]
    cases near : w.nearest? c.owner name with
    | some o =>
      rw [near] at lower
      have is : N.start.Attribute ⟨o, name⟩ := inv.grows.attribute.1
        (World.attribute_of_nearest? (sound.grounded.mono inv.grows) here near)
      have loaded := loadName_leads sound ready inv near is (lower _ rfl) room inside.running
      refine Leads.seq (loaded.mono ?_)
      rintro r w' ⟨v, rfl, finds⟩
      exact ⟨_, rfl, Leads.pure finds⟩
    | none =>
      have missed (self : Performer) :
          loadName self c.owner name (some t) w = some (.ok none, w) := by
        simp only [loadName, Action.read_bind, near]
        rfl
      refine Leads.of_eq (fun self => ?_) quiet
      show (loadName self c.owner name (some t) >>= _) w = _
      rw [Action.bind_apply, missed]
      unfold Environment.outer
      cases c.environment.globals.get? name with
      | some v => rfl
      | none => cases c.environment.builtins.get? name <;> rfl

theorem findAttr_of_attribute (is : w.Attribute d) :
    w.findAttr (.object d.object) d.name = some (.stored d) := by
  obtain ⟨y, known, has⟩ := is
  unfold World.findAttr
  dsimp only
  rw [(w.declared?_eq_some).1 known]
  exact if_pos has

/-- What is recorded under a bound attribute is its value. -/
theorem stored_of_recorded (sound : N.Sound) (start : N.start.Extends w) {c : Surroundings}
    {q : Read} {f : Found} (found : q.find w c = some f) (recorded : f.recorded = some d)
    (bound : N.start.Bound d) : f = .stored d := by
  have there := findAttr_of_attribute (start.attribute.2 (sound.declared bound))
  have attr {v : Value} {name : String} {f : Found} (found : w.findAttr v name = some f)
      (place : v.place? name = some d) : f = .stored d := by
    cases v with
    | object o =>
      cases place
      exact Option.some.inj (found.symm.trans there)
    | _ => cases place
  cases q with
  | name n =>
    obtain ⟨_, same⟩ := Option.ite_none_left_eq_some.1 found
    cases same
    unfold World.findName at recorded ⊢
    split at recorded
    · cases recorded
    · split at recorded
      · cases recorded
        rfl
      · cases recorded
  | load v n =>
    rcases recorded_of_findAttr found with ⟨_, rfl⟩ | ⟨o, rfl, place, _⟩
    · cases recorded
    · exact attr (v := .object o) found (place.symm.trans recorded)
  | getattr v n fallback =>
    obtain ⟨g, inner, rfl⟩ := Option.map_eq_some_iff.1 found
    rcases recorded_of_orElse inner fallback with ⟨_, failed⟩ | ⟨place, _⟩
    · rw [failed] at recorded
      cases recorded
    · rw [attr inner (place.symm.trans recorded)]
      rfl

/-- Every read of a body gives what is to be found and records it. -/
theorem read_leads (sound : N.Sound) (ready : N.Evaluable k) (inv : N.Inv w P)
    {c : Surroundings} {s : Scope} {t : TracerRef} (inside : Inside w c s t) {y : Declared}
    (here : w.declared? c.owner = some y) {q : Read} {f : Found} (found : q.find w c = some f)
    (lower : ∀ d, f = .stored d → N.start.Bound d → N.rank d < k)
    (room : N.Roomy (N.room + 1) k w) :
    Leads w (fun self => self _ (q.request s t)) (N.Finds k t P f w) := by
  refine Leads.request ?_
  cases q with
  | name n =>
    obtain ⟨plain, same⟩ := Option.ite_none_left_eq_some.1 found
    cases same
    exact getName_leads sound ready inv inside here (Bool.eq_false_iff.2 plain) lower room
  | load v n => exact loadAttr_leads sound ready inv found lower room inside.running
  | getattr v n fallback =>
    obtain ⟨g, inner, rfl⟩ := Option.map_eq_some_iff.1 found
    refine callTraced_leads sound ready inv inner (fun d same => lower d ?_) room inside.running
    rw [same]
    rfl

end LiveBinding.Network
