import LiveBinding.Proofs.Runs
import LiveBinding.Proofs.Subscriptions

/-! What a failed evaluation leaves behind.

The links of an attribute are made once its evaluation has succeeded. An evaluation that fails
makes none and drops none, whatever its tracer has recorded. So an attribute that has failed is
evaluated again when something changes that its latest successful evaluation consulted, and not
when something changes that only the failed one did. -/
namespace LiveBinding
variable {self : Performer} {w w' : World} {e : EngineRef} {owner : ObjectId} {name : String}

/-! ### Failed reads -/

/-- Making links does not fail. -/
theorem followAll_ok {ds : List Dependency} {r : Except BindError (List LinkRef)}
    (run : Engine.followAll e owner name ds w = some (r, w')) : ∃ ls, r = .ok ls := by
  have follow {d : Dependency} {r : Except BindError (Option LinkRef)} {u u' : World}
      (run : Engine.follow e owner name d u = some (r, u')) : ∃ l, r = .ok l := by
    unfold Engine.follow at run
    split at run
    · cases run
      exact ⟨none, rfl⟩
    · rw [Action.read_bind] at run
      cases found : u.registryOf? d.object with
      | none =>
        rw [found] at run
        cases run
        exact ⟨none, rfl⟩
      | some r =>
        rw [found] at run
        cases run
        exact ⟨_, rfl⟩
  induction ds generalizing w r with
  | nil =>
    cases run
    exact ⟨[], rfl⟩
  | cons d rest ih =>
    rcases Action.exists_of_bind run with ⟨cause, failed, _⟩ | ⟨first, w₁, _, others⟩
    · obtain ⟨_, same⟩ := follow failed
      cases same
    rcases Action.exists_of_bind others with ⟨cause, failed, _⟩ | ⟨ls, w₂, _, last⟩
    · obtain ⟨_, same⟩ := ih failed
      cases same
    · cases last
      exact ⟨_, rfl⟩

theorem relink_ok {t : TracerRef} {r : Except BindError Unit}
    (run : Engine.relink e owner name t w = some (r, w')) : r = .ok () := by
  unfold Engine.relink at run
  rw [Action.read_bind] at run
  split at run
  · rw [Action.read_bind, Action.update_bind] at run
    rcases Action.exists_of_bind run with ⟨cause, failed, _⟩ | ⟨ls, w₁, _, rest⟩
    · obtain ⟨_, same⟩ := followAll_ok failed
      cases same
    · cases rest
      rfl
  · cases run
    rfl

/-- A traced evaluation gives a value unless the body fails. -/
theorem exists_of_evaluate {h : Handler} {r : Except BindError (Option Value)}
    (traced : h.kind = .tracedRead)
    (run : Engine.evaluate self e owner name h w = some (r, w')) :
    (∃ cause, r = .error cause ∧ h.readTraced self owner name w = some (.error cause, w')) ∨
      ∃ v, r = .ok (some v) := by
  unfold Engine.evaluate at run
  rw [if_pos traced] at run
  rcases Action.exists_of_bind run with ⟨cause, failed, same⟩ | ⟨⟨v, t⟩, w₁, _, rest⟩
  · exact .inl ⟨cause, same, failed⟩
  · change (Engine.conclude e owner name t >>= _) w₁ = _ at rest
    unfold Engine.conclude at rest
    rw [Action.update_bind] at rest
    rcases Action.exists_of_bind rest with ⟨cause, failed, _⟩ | ⟨_, w₂, _, last⟩
    · cases relink_ok failed
    · cases last
      exact .inr ⟨v, rfl⟩

/-- Engines, what they observe and their links are as they were. -/
def World.SameLinks (w w' : World) : Prop :=
  w'.engines = w.engines ∧ w'.registries = w.registries ∧ w'.links = w.links

/-- A traced read that gives no value failed in the body, and nothing was linked after that. -/
theorem exists_of_failed_read {h : Handler} {r : Except BindError (Option Value)}
    (bound : ((w.engine e).bindings.get? name).bind Binding.read = some h)
    (traced : h.kind = .tracedRead) (run : Engine.read self e owner name w = some (r, w'))
    (failed : ∀ v, r ≠ .ok (some v)) :
    ∃ cause w₁, h.readTraced self owner name {w with limit := some (w.engine e).config.maxDepth} =
      some (.error cause, w₁) ∧ w₁.SameLinks w' := by
  unfold Engine.read at run
  rw [Action.read_bind, bound] at run
  obtain ⟨last, inner, rfl⟩ := Action.exists_of_within run
  rcases Action.exists_of_bind inner with ⟨_, ended, _⟩ | ⟨r₁, w₁, attempted, rest⟩
  · obtain ⟨_, _, same⟩ := Action.exists_of_attempt ended
    cases same
  obtain ⟨r₂, ended, same⟩ := Action.exists_of_attempt attempted
  cases same
  rcases exists_of_evaluate traced ended with ⟨cause, same, body⟩ | ⟨v, same⟩
  · cases same
    refine ⟨cause, w₁, body, ?_⟩
    cases policy : (w.engine e).config.policy with
    | propagate =>
      rw [policy] at rest
      cases rest
      exact ⟨rfl, rfl, rfl⟩
    | logAndContinue =>
      rw [policy] at rest
      cases rest
      exact ⟨rfl, rfl, rfl⟩
  · cases same
    cases rest
    exact absurd rfl (failed v)

/-! ### Who hears of later changes -/

/-- The links of an attribute that a notification tells are those that are installed. -/
theorem World.filterMap_liveObservers (w : World) (e : EngineRef) (name : String)
    (xs : List Observer) :
    (w.liveObservers xs).filterMap (w.linkFor? e name) = xs.filterMap (w.linkFor? e name) := by
  rw [World.liveObservers, List.filterMap_filter]
  apply List.filterMap_congr
  intro x _
  cases x with
  | watcher c =>
    show (if _ then none else none) = none
    split <;> rfl
  | link l =>
    show (if w.isLive (.link l) = true then w.linkFor? e name (.link l) else none) = _
    cases live : w.isLive (.link l) with
    | true => rfl
    | false => simp [linkFor?, live]

/-- **A failed evaluation links nothing.** Whichever policy an engine has, a traced read that gives
no value failed in the body, and no link was made or dropped from then on, whatever the tracer
has recorded. As long as the attribute is neither bound anew nor evaluated again, a change of
another attribute is told to one link of it if the latest successful evaluation has consulted
what has changed, and to none otherwise. -/
theorem failed_read_links_nothing {n : Nat} {h : Handler} {r : Except BindError (Option Value)}
    (bound : ((w.engine e).bindings.get? name).bind Binding.read = some h)
    (traced : h.kind = .tracedRead)
    (run : Engine.read (perform n) e owner name w = some (r, w'))
    (failed : ∀ v, r ≠ .ok (some v)) :
    (∃ cause w₁,
      h.readTraced (perform n) owner name {w with limit := some (w.engine e).config.maxDepth} =
        some (.error cause, w₁) ∧ w₁.SameLinks w') ∧
    ∀ v : World, Reachable v → v.Lasting → v.isLive (.engine e) = true →
      (v.engine e).config.traceSubscriptions = true →
      (v.engine e).latest name = (w'.engine e).latest name →
      ∀ (m : Nat) (c : Change) (change : ObjectId) (reg : RegistryRef) (res : Except BindError Nat)
        (v' : World), v.change? change = some c → v.registryOf? c.owner = some reg →
        notify (perform m) reg change v = some (res, v') →
        let live := v.liveObservers (v.observersOf ⟨c.owner, c.name⟩)
        (∃ last, Told (perform m) change live (v.notifying reg change c) last ∧
          v' = {last with held := v.held}) ∧
        (live.filterMap (v.linkFor? e name)).length =
          if ((w'.engine e).latest name).any fun x => x.consulted.contains ⟨c.owner, c.name⟩ &&
            v.follows x.owner name ⟨c.owner, c.name⟩ then 1 else 0 := by
  refine ⟨exists_of_failed_read bound traced run failed, ?_⟩
  intro v reached lasting alive tracing same m c change reg res v' known observable notified
  have exact := (World.installed_exact reached lasting alive tracing name ⟨c.owner, c.name⟩).1
  have observers : v.observersOf ⟨c.owner, c.name⟩ = (v.registry reg).observers c.name := by
    rw [World.observersOf, observable]
    rfl
  obtain ⟨_, telling⟩ := exists_of_notify known notified
  rw [← observers] at telling
  refine ⟨telling, ?_⟩
  rw [World.filterMap_liveObservers]
  refine exact.trans ?_
  rw [World.consults, same]
  cases (w'.engine e).latest name with
  | none => rfl
  | some x => rfl

namespace fallback

/-- An attribute by its name, unless it is zero. -/
def orElse (s : Scope) (name : String) (other : Program Value) : Program Value := do
  let v ← .request (.getName s name)
  if ← .query (.isTrue v) then return v else other

/-- `b` is `a`, or else `d`. Then `a` is set to zero, as `d` is. -/
def session : Program Unit := do
  let o ← .request (.newObject
    { typeName := "Item", parent := none, attributes := .ofList [("a", .int 1), ("d", .int 0)]
      members := [], constants := .empty, storage := .empty, config := none })
  .request (.keep "item" (.object o))
  let f ← .request (.newFunction "b" ⟨.empty, .empty⟩ fun s _ =>
    orElse s "a" (orElse s "d" (.fail (.evaluation "nothing to show"))))
  .request (.bind o "b" .subscribe f (.given 0))
  .request (.populate o)
  .request (.setAttr (.object o) "a" (.int 0))

def start : World := (session.run (perform 12) (.initial #[])).elim (.initial #[]) Prod.snd

theorem reachable : Reachable start := (Reachable.start #[]).final 12 session

/-- The world after `b` has been read once more. -/
def again : World := (Engine.read (perform 11) ⟨0⟩ ⟨0⟩ "b" start).elim start Prod.snd

/-- The world after `d` has been set. -/
def later : World :=
  (perform 12 Unit (.setAttr (.object ⟨0⟩) "d" (.int 7)) start).elim start Prod.snd

/-- Whether the latest successful evaluation of `b` makes it follow an attribute of its object. -/
def follows (name : String) : Bool :=
  ((later.engine ⟨0⟩).latest "b").any fun x => x.consulted.contains ⟨⟨0⟩, name⟩ &&
    later.follows x.owner "b" ⟨⟨0⟩, name⟩

def ofA : Change := ⟨.update, ⟨0⟩, "a", .int 1, .int 0⟩

def ofD : Change := ⟨.update, ⟨0⟩, "d", .int 0, .int 7⟩

/-- The world after a notification of one of the two changes. -/
def notified (change : ObjectId) : World :=
  (notify (perform 5) ⟨0⟩ change later).elim later Prod.snd

/-- Who is told of a change of an attribute. -/
def live (name : String) : List Observer := later.liveObservers (later.observersOf ⟨⟨0⟩, name⟩)

theorem fails : ((start.engine ⟨0⟩).bindings.get? "b").bind Binding.read =
      some ⟨.tracedRead, ⟨0⟩, .given 0⟩ ∧
    (Engine.read (perform 11) ⟨0⟩ ⟨0⟩ "b" start).map Prod.fst =
      some (.error (.evaluation "nothing to show")) ∧
    later.isLive (.engine ⟨0⟩) = true ∧ (later.engine ⟨0⟩).config.traceSubscriptions = true ∧
    (later.registries.all fun r => r.forgotten.isEmpty) = true ∧
    (later.engine ⟨0⟩).history = (again.engine ⟨0⟩).history ∧
    (perform 12 Unit (.setAttr (.object ⟨0⟩) "d" (.int 7)) start).any (·.1.isOk) = true ∧
    later.change? ⟨2⟩ = some ofA ∧ later.change? ⟨3⟩ = some ofD ∧
    later.registryOf? ⟨0⟩ = some ⟨0⟩ ∧
    (notify (perform 5) ⟨0⟩ ⟨2⟩ later).isSome = true ∧
    (notify (perform 5) ⟨0⟩ ⟨3⟩ later).isSome = true ∧ follows "a" = true ∧
    follows "d" = false := by
  decide +kernel

/-- After the failure a notification of the change of `a` tells a link of `b`, and one of the change
of `d` does not. -/
theorem tells_of_first_only :
    ((∃ last, Told (perform 5) ⟨2⟩ (live "a") (later.notifying ⟨0⟩ ⟨2⟩ ofA) last ∧
        notified ⟨2⟩ = {last with held := later.held}) ∧
      ((live "a").filterMap (later.linkFor? ⟨0⟩ "b")).length = 1) ∧
    (∃ last, Told (perform 5) ⟨3⟩ (live "d") (later.notifying ⟨0⟩ ⟨3⟩ ofD) last ∧
        notified ⟨3⟩ = {last with held := later.held}) ∧
      ((live "d").filterMap (later.linkFor? ⟨0⟩ "b")).length = 0 := by
  obtain ⟨bound, ended, alive, tracing, never, same, assigns, first, second, registry, runs, runs',
    followed, unfollowed⟩ := fails
  rw [Option.map_eq_some_iff] at ended
  obtain ⟨⟨r, w'⟩, run, rfl⟩ := ended
  have there : again = w' := by rw [again, run, Option.elim_some]
  rw [there] at same
  obtain ⟨⟨res, v⟩, told⟩ := Option.isSome_iff_exists.1 runs
  obtain ⟨⟨res', v'⟩, told'⟩ := Option.isSome_iff_exists.1 runs'
  obtain rfl : notified ⟨2⟩ = v := by rw [notified, told, Option.elim_some]
  obtain rfl : notified ⟨3⟩ = v' := by rw [notified, told', Option.elim_some]
  have reached : Reachable later := reachable.ask (Action.eq_some_of_isOk assigns)
  have after := (failed_read_links_nothing bound rfl run fun v same => by cases same).2 later
    reached (World.lasting_of_isEmpty never) alive tracing (congrArg (latestIn "b") same) 5
  have kept : (w'.engine ⟨0⟩).latest "b" = (later.engine ⟨0⟩).latest "b" :=
    (congrArg (latestIn "b") same).symm
  obtain ⟨telling, count⟩ := after _ _ _ _ _ first registry told
  obtain ⟨telling', count'⟩ := after _ _ _ _ _ second registry told'
  rw [kept] at count count'
  exact ⟨⟨telling, count.trans (if_pos followed)⟩, telling',
    count'.trans (if_neg (Bool.eq_false_iff.1 unfollowed))⟩

/-- The evaluation of `b` that failed had consulted `d`. But when `d` is set, no body runs, and `b`
is still what it was. -/
theorem keeps_last_value :
    (start.tracer ⟨1⟩).dependencies = [⟨⟨0⟩, "a"⟩, ⟨⟨0⟩, "d"⟩] ∧
    (start.log.back?.map LogEntry.message) = some "binding update failed" ∧
    (perform 12 Unit (.setAttr (.object ⟨0⟩) "d" (.int 7)) start).any (·.1.isOk) = true ∧
    later.log.size = start.log.size ∧ later.stored? ⟨0⟩ "d" = some (.int 7) ∧
    later.stored? ⟨0⟩ "b" = some (.int 1) := by
  decide +kernel

end fallback

end LiveBinding
