import LiveBinding.Proofs.Records

/-! When operations end.

An operation on an attribute runs handlers, lets observers know and asks for an assignment. Nothing
else that it does can take forever, so it ends exactly if these do. -/
namespace LiveBinding
variable {α β : Type} {self : Performer} {w w' : World} {e : EngineRef} {o : ObjectId}
  {name : String}

namespace Action
variable {a : Action α} {f : α → Action β}

theorem isSome_bind : ((a >>= f) w).isSome ↔
    (a w).isSome ∧ ∀ x u, a w = some (.ok x, u) → (f x u).isSome := by
  rw [bind_apply]
  rcases a w with _ | ⟨_ | x, u⟩
  · simp
  · simp
  · refine ⟨fun ends => ⟨rfl, ?_⟩, fun ends => ends.2 x u rfl⟩
    rintro _ _ ⟨⟩
    exact ends

/-- Goes on with something that always ends. -/
theorem isSome_bind_of_ends (ends : ∀ x u, (f x u).isSome) :
    ((a >>= f) w).isSome ↔ (a w).isSome :=
  isSome_bind.trans (and_iff_left fun x u _ => ends x u)

theorem isSome_attempt : (a.attempt w).isSome ↔ (a w).isSome := by
  rw [attempt_apply]
  rcases a w with _ | ⟨r, u⟩ <;> simp

theorem isSome_within {enter : World → World} {leave : World → World → World} :
    (a.within enter leave w).isSome ↔ (a (enter w)).isSome := by
  rw [within_apply]
  rcases a (enter w) with _ | ⟨r, u⟩ <;> simp

end Action

open LiveBinding.Action

/-! ### Reading -/

theorem isSome_settle {policy : FailurePolicy} {default : α} {r : Except BindError α} :
    (Engine.settle policy default o name r w).isSome := by
  cases r <;> cases policy <;> rfl

theorem isSome_followAll {ds : List Dependency} :
    (Engine.followAll e o name ds w).isSome := by
  have follow (d : Dependency) (u : World) : (Engine.follow e o name d u).isSome := by
    unfold Engine.follow
    split
    · rfl
    · rw [read_bind]
      cases u.registryOf? d.object <;> rfl
  induction ds generalizing w with
  | nil => rfl
  | cons d rest ih =>
    exact (isSome_bind_of_ends fun _ _ => (isSome_bind_of_ends fun _ _ => rfl).2 ih).2 (follow d w)

theorem isSome_relink {t : TracerRef} : (Engine.relink e o name t w).isSome := by
  unfold Engine.relink
  rw [read_bind]
  split
  · rw [read_bind, update_bind]
    exact (isSome_bind_of_ends fun _ _ => rfl).2 isSome_followAll
  · rfl

/-- What a read handler comes to. -/
def Handler.value (self : Performer) (h : Handler) (owner : ObjectId) (name : String) :
    Action Value :=
  if h.kind = .tracedRead then do
    let (x, _) ← h.readTraced self owner name
    return x
  else h.read self owner name

theorem isSome_evaluate {h : Handler} :
    (Engine.evaluate self e o name h w).isSome ↔ (h.value self o name w).isSome := by
  unfold Engine.evaluate Handler.value
  split
  · have linked (x : Value × TracerRef) (u : World) : ((do
        Engine.conclude e o name x.2
        Engine.relink e o name x.2
        return some x.1 : Action (Option Value)) u).isSome := by
      unfold Engine.conclude
      rw [update_bind]
      exact (isSome_bind_of_ends fun _ _ => rfl).2 isSome_relink
    exact (isSome_bind_of_ends linked).trans (isSome_bind_of_ends fun _ _ => rfl).symm
  · exact isSome_bind_of_ends fun _ _ => rfl

namespace Engine

/-- The handler that reads an attribute ends within the limit of its engine, if there is one. -/
def ReadEnds (self : Performer) (e : EngineRef) (o : ObjectId) (name : String) (w : World) : Prop :=
  ∀ h, ((w.engine e).bindings.get? name).bind Binding.read = some h →
    (h.value self o name {w with limit := some (w.engine e).config.maxDepth}).isSome

/-- The handler that writes an attribute back ends, unless the attribute is guarded. -/
def WriteEnds (self : Performer) (e : EngineRef) (o : ObjectId) (name : String) (change : ObjectId)
    (w : World) : Prop :=
  name ∉ (w.engine e).guards → ∀ h, ((w.engine e).bindings.get? name).bind Binding.write = some h →
    (h.write self o name change {w with limit := some (w.engine e).config.maxDepth}).isSome

/-- What reads an attribute ends, and so does the assignment of what has been read. -/
def UpdateEnds (self : Performer) (e : EngineRef) (o : ObjectId) (name : String) (w : World) :
    Prop :=
  ReadEnds self e o name (w.hold [.engine e, .object o]) ∧
    ∀ x u, Engine.read self e o name (w.hold [.engine e, .object o]) = some (.ok (some x), u) →
      (self Unit (.setAttr (.object o) name x)
        ((u.addEntry (.bindingUpdated o name (u.text x))).guard e name)).isSome

end Engine

theorem isSome_read : (Engine.read self e o name w).isSome ↔ Engine.ReadEnds self e o name w := by
  unfold Engine.read Engine.ReadEnds
  rw [read_bind]
  cases ((w.engine e).bindings.get? name).bind Binding.read with
  | none => simp
  | some h =>
    simp only [Option.some.injEq, forall_eq']
    exact (isSome_within.trans (isSome_bind_of_ends fun _ _ => isSome_settle)).trans
      (isSome_attempt.trans isSome_evaluate)

theorem isSome_write {change : ObjectId} :
    (Engine.write self e o name change w).isSome ↔ Engine.WriteEnds self e o name change w := by
  unfold Engine.write Engine.WriteEnds
  rw [read_bind]
  by_cases guarded : name ∈ (w.engine e).guards
  · simp [guarded]
  · rw [if_neg (by simpa using guarded)]
    cases ((w.engine e).bindings.get? name).bind Binding.write with
    | none => simp
    | some h =>
      simp only [guarded, not_false_eq_true, forall_const, Option.some.injEq, forall_eq']
      exact (isSome_within.trans (isSome_bind_of_ends fun _ _ => isSome_settle)).trans
        isSome_attempt

theorem isSome_update :
    (Engine.update self e o name w).isSome ↔ Engine.UpdateEnds self e o name w := by
  have assigned (x : Value) (u : World) : ((do
      Action.log (.bindingUpdated o name (← Action.read (·.text x)))
      Action.guarding e name (self _ (.setAttr (.object o) name x)) : Action Unit) u).isSome ↔
        (self Unit (.setAttr (.object o) name x)
          ((u.addEntry (.bindingUpdated o name (u.text x))).guard e name)).isSome := by
    rw [read_bind, log_bind]
    exact isSome_within
  unfold Engine.update Engine.UpdateEnds World.hold Action.holding
  rw [isSome_within, isSome_bind, isSome_read]
  refine and_congr_right fun _ => ?_
  constructor
  · exact fun ends x u reads => (assigned x u).1 (ends (some x) u reads)
  · intro ends x u reads
    cases x with
    | none => rfl
    | some x => exact (assigned x u).2 (ends x u reads)

/-- An attribute that has no value waits for the engine to read it. -/
def World.Waits (w : World) (e : EngineRef) (o : ObjectId) (name : String) : Prop :=
  w.stored? o name = none ∧ w.hasAttribute o name = true ∧ (w.engine e).hasReader name = true

/-- Reading an attribute ends unless it has to be updated first and the update does not. -/
theorem isSome_readAttr (engine : w.engineOf? o = some e) : (readAttr self o name w).isSome ↔
    (w.Waits e o name → Engine.UpdateEnds self e o name (w.hold [.object o])) := by
  obtain ⟨d, known, own⟩ := Option.bind_eq_some_iff.1 engine
  have stored : w.stored? o name = d.values.get? name := by
    rw [World.stored?, known]
    rfl
  have has : w.hasAttribute o name = d.hasAttribute name := by
    rw [World.hasAttribute, World.hasWithin_of_declared known]
    simp
  unfold readAttr World.Waits
  rw [read_bind, (w.declared?_eq_some).1 known, stored, has]
  refine isSome_within.trans ?_
  unfold readDeclared
  cases d.values.get? name with
  | some x => simp
  | none =>
    cases d.hasAttribute name with
    | false => simp
    | true =>
      rw [own]
      simp only [Bool.not_true, Bool.false_eq_true, if_false, true_and]
      rw [read_bind, show World.engine {w with held := [.object o] ++ w.held} e =
        w.engine e from rfl]
      cases (w.engine e).hasReader name with
      | false => simp
      | true =>
        rw [if_pos rfl, forall_prop_of_true rfl, ← isSome_update]
        exact isSome_bind_of_ends fun _ _ => rfl

/-! ### Letting others know -/

section
variable {change : ObjectId} {xs : List Observer} {r : RegistryRef} {c : Change}

theorem deliver_of_told (told : Told self change xs w w') :
    deliver self change xs w = some (.ok (), w') := by
  induction told with
  | none => rfl
  | next first _ ih =>
    unfold deliver
    rw [bind_apply, first]
    exact ih

theorem notify_of_told {last : World} (known : w.change? change = some c)
    (told : Told self change (w.liveObservers ((w.registry r).observers c.name))
      (w.notifying r change c) last) :
    ∃ n, notify self r change w = some (.ok n, {last with held := w.held}) := by
  unfold notify
  rw [read_bind, known]
  dsimp only
  rw [read_bind]
  cases listed : (w.registry r).slots.get? c.name with
  | none =>
    rw [World.observers_of_unheard listed, w.notifying_of_unheard change listed] at told
    cases told
    exact ⟨0, rfl⟩
  | some xs =>
    rw [World.observers_of_listed listed, w.notifying_of_listed change listed] at told
    dsimp only
    rw [read_bind, update_bind, log_bind, bind_apply, holding, within_apply]
    exact ⟨_, by rw [← World.hold, deliver_of_told told]; rfl⟩

/-- A link lets its attribute be updated, if nothing of it is gone. -/
theorem isSome_inform {l : LinkRef} {k : Link} (made : w.links[l.index]? = some k)
    (known : w.change? change = some c) (engine : w.isLive (.engine k.engine) = true)
    (owner : w.isLive (.object k.owner) = true) : (inform self change (.link l) w).isSome ↔
      (Engine.update self k.engine k.owner k.name ((w.tell (.link l) change).addEntry
        (.dependencyChanged k.owner k.name c.owner c.name))).isSome := by
  rw [inform_link made known engine owner, Option.isSome_map]

/-- The observers of a change come to an end, one after the other, and so does the handler that
writes it back. -/
def ChangeEnds (self : Performer) (c : Change) (w : World) : Prop :=
  let change : ObjectId := ⟨w.objects.size⟩
  let w₁ := w.announce c
  ∀ r, w.registryOf? c.owner = some r → ∃ last,
    Told self change (w₁.liveObservers ((w₁.registry r).observers c.name))
      (w₁.notifying r change c) last ∧
    ∀ e, last.engineOf? c.owner = some e → Engine.WriteEnds self e c.owner c.name change
      (World.hold {last with held := w₁.held} [.engine e])

theorem isSome_dispatch (observable : w.registryOf? c.owner = some r) :
    (dispatch self c.owner c.kind c.name c.old c.new w).isSome ↔ ChangeEnds self c w := by
  have known := w.change?_announce c
  constructor
  · intro ends s here
    cases observable.symm.trans here
    obtain ⟨⟨res, w'⟩, run⟩ := Option.isSome_iff_exists.1 ends
    obtain ⟨k, told, ended, rest⟩ := exists_of_dispatch observable run
    obtain ⟨_, last, delivered, rfl⟩ := exists_of_notify known ended
    refine ⟨last, delivered, fun e engine => isSome_write.1 ?_⟩
    rw [show World.engineOf? {last with held := (w.announce c).held} c.owner = some e from engine]
      at rest
    obtain ⟨w₁, wrote, _⟩ := rest
    rw [wrote]
    rfl
  · intro ends
    obtain ⟨last, told, written⟩ := ends r observable
    obtain ⟨n, notified⟩ := notify_of_told known told
    have same : (w.announce c).registryOf? c.owner = some r :=
      (w.persists_announce c).registryOf? observable
    unfold dispatch
    rw [add_bind, holding, isSome_within]
    show ((Action.read (·.registryOf? c.owner) >>= _) (w.announce c)).isSome
    rw [read_bind, same]
    dsimp only
    rw [bind_apply, show (w.addObject (.change ⟨c.kind, c.owner, c.name, c.old, c.new⟩)).2 =
      ⟨w.objects.size⟩ from rfl, notified]
    dsimp only
    rw [read_bind, show World.engineOf? {last with held := (w.announce c).held} c.owner =
      last.engineOf? c.owner from rfl]
    cases engine : last.engineOf? c.owner with
    | none => rfl
    | some e => exact isSome_within.2 (isSome_write.2 (written e engine))

/-- A move that is allowed ends exactly if those who hear of it do. -/
theorem isSome_move {d : Declared} {move : Move} (known : w.declared? o = some d)
    (allowed : move.Allowed d name) : (move.run self o name w).isSome ↔
      ∀ c u, move.sends o name w = some (c, u) → ChangeEnds self c u := by
  obtain ⟨leave, _, same⟩ := Move.run_eq self known allowed
  rw [same]
  cases sends : move.sends o name w with
  | none => simp
  | some x =>
    obtain ⟨c, u⟩ := x
    have sent := Move.sent_of_sends sends
    obtain ⟨rfl, rfl⟩ := sent.about
    have observable : w.registryOf? c.owner = some d.registry := by
      rw [World.registryOf?, known]
      rfl
    dsimp only
    rw [Option.isSome_map, isSome_dispatch (sent.persists.registryOf? observable)]
    simp

end

/-! ### Populating -/

/-- Reading an attribute ends, for as many of them as have no value and a reader, one after the
other. -/
def PopulateEnds (self : Performer) (e : EngineRef) (o : ObjectId) : List String → World → Prop
  | [], _ => True
  | name :: rest, w =>
    if (w.engine e).hasReader name && (w.stored? o name).isNone then
      (readAttr self o name w).isSome ∧
        ∀ x u, readAttr self o name w = some (.ok x, u) → PopulateEnds self e o rest u
    else PopulateEnds self e o rest w

theorem isSome_populateAll {names : List String} :
    (populateAll self o e names w).isSome ↔ PopulateEnds self e o names w := by
  induction names generalizing w with
  | nil => simp [populateAll, PopulateEnds]
  | cons name rest ih =>
    unfold populateAll PopulateEnds
    rw [read_bind, read_bind]
    cases (w.engine e).hasReader name && (w.stored? o name).isNone with
    | false => exact ih
    | true =>
      rw [if_pos rfl, if_pos rfl, isSome_bind]
      exact and_congr_right fun _ => forall₂_congr fun x u => imp_congr_right fun _ => ih

theorem isSome_populate (engine : w.engineOf? o = some e) : (populate self o w).isSome ↔
    PopulateEnds self e o (w.engine e).names (w.hold [.object o, .engine e]) := by
  unfold populate
  rw [read_bind, engine]
  dsimp only
  rw [read_bind, holding, isSome_within, isSome_populateAll]
  rfl

end LiveBinding
