import LiveBinding.Proofs.Frame
import Mathlib.Tactic.ByContra

/-! Whom a notification tells.

A watcher is held by whoever has its subscription and by nobody else. Once the subscription is
let go, no notification that starts later tells the watcher, and it is not counted any more. A
notification that has started holds its observers itself, and it tells each of them, in order,
whatever becomes of the subscriptions in the meantime. -/
namespace LiveBinding

/-! ### Who holds watchers -/

theorem Value.watcher_notMem_handles (c : WatcherRef) (v : Value) : .watcher c ∉ v.handles := by
  cases v <;> simp [handles]

theorem Dict.watcher_notMem_handles {κ : Type} (c : WatcherRef) (d : Dict κ Value) :
    .watcher c ∉ d.handles := by
  simp [handles, Value.watcher_notMem_handles]

theorem Entity.watcher_notMem_handles (c : WatcherRef) (x : Entity) : .watcher c ∉ x.handles := by
  cases x <;> simp [handles, Value.watcher_notMem_handles, Dict.watcher_notMem_handles]

namespace World
variable {w : World} {c : WatcherRef}

theorem watcher_notMem_holds (w : World) (c : WatcherRef) (g : Handle) :
    .watcher c ∉ w.holds g := by
  cases g with
  | object o =>
    show .watcher c ∉ (w.entity? o).elim [] Entity.handles
    cases w.entity? o with
    | none => exact List.not_mem_nil
    | some x => exact x.watcher_notMem_handles c
  | native f =>
    show .watcher c ∉ (w.natives[f.index]?).elim [] fun n => n.captured.flatMap Value.handles
    cases w.natives[f.index]? with
    | none => exact List.not_mem_nil
    | some n => simp [Value.watcher_notMem_handles]
  | list r => simp [holds, Value.watcher_notMem_handles]
  | map r => simp [holds, Dict.watcher_notMem_handles]
  | layer l => simp [holds, Dict.watcher_notMem_handles]
  | function f => simp [holds, Environment.handles, Dict.watcher_notMem_handles]
  | tracer t => simp [holds, Tracer.handles]
  | engine e => simp [holds, Engine.handles, Binding.handles]
  | watcher _ | link _ => exact List.not_mem_nil

/-- A watcher is there as long as the host or an operation in progress holds it. -/
theorem isLive_watcher : w.isLive (.watcher c) = true ↔ .watcher c ∈ w.roots := by
  refine ⟨fun live => ?_, isLive_of_mem_roots⟩
  by_contra outside
  exact isLive_iff.1 live (.intro outside fun g held =>
    absurd held.2 (w.watcher_notMem_holds c g))

theorem watcher_mem_liveObservers {xs : List Observer} :
    .watcher c ∈ w.liveObservers xs ↔ .watcher c ∈ xs ∧ .watcher c ∈ w.roots := by
  rw [liveObservers, List.mem_filter]
  exact and_congr_right fun _ => isLive_watcher

end World

/-! ### Telling observers -/

/-- These observers have been told of a change, one after the other. -/
inductive Told (self : Performer) (change : ObjectId) : List Observer → World → World → Prop where
  | none (w : World) : Told self change [] w w
  | next {x : Observer} {rest : List Observer} {w w₁ w₂ : World}
      (first : inform self change x w = some (.ok (), w₁)) (others : Told self change rest w₁ w₂) :
      Told self change (x :: rest) w w₂

variable {self : Performer} {change : ObjectId} {w w' : World}

/-- Whoever makes a change never hears of the failure of an observer. -/
theorem refresh_ok {l : Link} {c : Change} {r : Except BindError Unit}
    (run : refresh self l c w = some (r, w')) : r = .ok () := by
  unfold refresh at run
  rw [Action.read_bind, Action.read_bind] at run
  split at run
  · rw [Action.log_bind] at run
    rcases Action.exists_of_bind run with ⟨e, failed, _⟩ | ⟨r', w₁, _, rest⟩
    · obtain ⟨_, _, same⟩ := Action.exists_of_attempt failed
      cases same
    · cases r' <;> cases rest <;> rfl
  · cases run
    rfl

theorem watch_ok {x : Watcher} {r : Except BindError Unit}
    (run : watch self x change w = some (r, w')) : r = .ok () := by
  rcases Action.exists_of_bind run with ⟨e, failed, _⟩ | ⟨r', w₁, _, rest⟩
  · obtain ⟨_, _, same⟩ := Action.exists_of_attempt failed
    cases same
  · cases rest
    rfl

theorem react_ok {x : Observer} {r : Except BindError Unit}
    (run : react self change x w = some (r, w')) : r = .ok () := by
  cases x with
  | watcher c =>
    simp only [react] at run
    split at run
    · exact watch_ok run
    · cases run
      rfl
  | link l =>
    simp only [react] at run
    split at run
    · exact refresh_ok run
    · cases run
      rfl

theorem inform_ok {x : Observer} {r : Except BindError Unit}
    (run : inform self change x w = some (r, w')) : r = .ok () :=
    react_ok (w := w.tell x change) run

/-- A link lets its attribute be updated, unless something of it is gone. Whoever makes the change
does not hear of a failure. -/
theorem inform_link {l : LinkRef} {k : Link} {c : Change} (made : w.links[l.index]? = some k)
    (known : w.change? change = some c) (engine : w.isLive (.engine k.engine) = true)
    (owner : w.isLive (.object k.owner) = true) :
    inform self change (.link l) w =
      (Engine.update self k.engine k.owner k.name ((w.tell (.link l) change).addEntry
        (.dependencyChanged k.owner k.name c.owner c.name))).map fun x =>
          (.ok (), match x.1 with
            | .ok _ => x.2
            | .error cause => x.2.addEntry (.updateFailed k.owner k.name cause)) := by
  have made' : (w.tell (.link l) change).links[l.index]? = some k := made
  have known' : (w.tell (.link l) change).change? change = some c := known
  have engine' : (w.tell (.link l) change).isLive (.engine k.engine) = true :=
    (World.isLive_tell ..).trans engine
  have owner' : (w.tell (.link l) change).isLive (.object k.owner) = true :=
    (World.isLive_tell ..).trans owner
  show react self change (.link l) (w.tell (.link l) change) = _
  simp only [react, made', known', refresh]
  rw [Action.read_bind, Action.read_bind, engine', owner', Bool.and_true, if_pos rfl,
    Action.log_bind, Action.bind_apply, Action.attempt_apply]
  rcases Engine.update self k.engine k.owner k.name _ with _ | ⟨_ | _, _⟩ <;> rfl

theorem deliver_told {xs : List Observer} {r : Except BindError Unit}
    (run : deliver self change xs w = some (r, w')) : r = .ok () ∧ Told self change xs w w' := by
  induction xs generalizing w with
  | nil =>
    cases run
    exact ⟨rfl, .none _⟩
  | cons x rest ih =>
    rcases Action.exists_of_bind run with ⟨e, failed, _⟩ | ⟨_, w₁, first, others⟩
    · cases inform_ok failed
    · obtain ⟨ok, told⟩ := ih others
      exact ⟨ok, .next first told⟩

/-! ### Notifications -/

/-- A notification of a change has started. If anybody has ever observed the attribute, it has
forgotten those that nobody holds, and holds on to the others. -/
def World.notifying (w : World) (r : RegistryRef) (change : ObjectId) (c : Change) : World :=
  match (w.registry r).slots.get? c.name with
  | none => w
  | some xs =>
    ((w.modifyRegistry r (·.prune c.name (w.liveObservers xs).contains)).addEntry
      (.observersNotified c.name c.kind (w.liveObservers xs).length)).hold
        (.object change :: (w.liveObservers xs).map Observer.handle)

namespace World
variable {r : RegistryRef} {c : Change} {xs : List Observer}

theorem notifying_of_unheard (w : World) (change : ObjectId)
    (listed : (w.registry r).slots.get? c.name = none) : w.notifying r change c = w := by
  rw [notifying, listed]

theorem notifying_of_listed (w : World) (change : ObjectId)
    (listed : (w.registry r).slots.get? c.name = some xs) :
    w.notifying r change c =
      ((w.modifyRegistry r (·.prune c.name (w.liveObservers xs).contains)).addEntry
        (.observersNotified c.name c.kind (w.liveObservers xs).length)).hold
          (.object change :: (w.liveObservers xs).map Observer.handle) := by
  rw [notifying, listed]

theorem observers_of_unheard (listed : (w.registry r).slots.get? c.name = none) :
    (w.registry r).observers c.name = [] := by
  rw [Registry.observers, listed]
  rfl

theorem observers_of_listed (listed : (w.registry r).slots.get? c.name = some xs) :
    (w.registry r).observers c.name = xs := by
  rw [Registry.observers, listed]
  rfl

@[simp] theorem objects_notifying (w : World) (r : RegistryRef) (change : ObjectId) (c : Change) :
    (w.notifying r change c).objects = w.objects := by
  unfold notifying
  split <;> rfl

@[simp] theorem watchers_notifying (w : World) (r : RegistryRef) (change : ObjectId) (c : Change) :
    (w.notifying r change c).watchers = w.watchers := by
  unfold notifying
  split <;> rfl

@[simp] theorem told_notifying (w : World) (r : RegistryRef) (change : ObjectId) (c : Change) :
    (w.notifying r change c).told = w.told := by
  unfold notifying
  split <;> rfl

/-- Whoever is to be told is held. -/
theorem handle_mem_held_notifying {x : Observer}
    (live : x ∈ w.liveObservers ((w.registry r).observers c.name)) :
    x.handle ∈ (w.notifying r change c).held := by
  cases listed : (w.registry r).slots.get? c.name with
  | none =>
    rw [observers_of_unheard listed] at live
    cases live
  | some xs =>
    rw [observers_of_listed listed] at live
    rw [w.notifying_of_listed change listed]
    exact List.mem_append_left _ (List.mem_cons_of_mem _ (List.mem_map_of_mem live))

end World

theorem notify_eq {r : RegistryRef} {c : Change} {xs : List Observer} {last : World}
    (what : w.change? change = some c) (listed : (w.registry r).slots.get? c.name = some xs)
    (told : deliver self change (w.liveObservers xs) (w.notifying r change c) =
      some (.ok (), last)) :
    notify self r change w =
      some (.ok (w.liveObservers xs).length, {last with held := w.held}) := by
  unfold notify
  rw [Action.read_bind, what]
  dsimp only
  rw [Action.read_bind, listed]
  dsimp only
  rw [Action.read_bind, Action.update_bind, Action.log_bind, Action.bind_apply, Action.holding,
    Action.within_apply]
  rw [w.notifying_of_listed change listed] at told
  unfold World.hold at told
  rw [told]
  rfl

theorem notify_unheard {r : RegistryRef} {c : Change} (what : w.change? change = some c)
    (listed : (w.registry r).slots.get? c.name = none) :
    notify self r change w = some (.ok 0, w) := by
  unfold notify
  rw [Action.read_bind, what]
  dsimp only
  rw [Action.read_bind, listed]
  rfl

/-- Whoever is told is called, whatever becomes of the call. -/
theorem inform_eq {x : WatcherRef} {f : Watcher} {u : World} {res : Except BindError Unit}
    (found : w.watchers[x.index]? = some f)
    (called : (f.code change).run self (w.tell (.watcher x) change) = some (res, u)) :
    inform self change (.watcher x) w = some (.ok (), u) := by
  have here : (w.tell (.watcher x) change).watchers[x.index]? = some f := found
  show react self change (.watcher x) (w.tell (.watcher x) change) = _
  simp only [react, here]
  show ((f.code change).run self).attempt.bind _ _ = _
  unfold Action.bind
  rw [Action.attempt_apply, called]
  rfl

/-- A notification that has ended told the observers that were held when it started. -/
theorem exists_of_notify {r : RegistryRef} {c : Change} {res : Except BindError Nat}
    (known : w.change? change = some c) (run : notify self r change w = some (res, w')) :
    let live := w.liveObservers ((w.registry r).observers c.name)
    res = .ok live.length ∧ ∃ last, Told self change live (w.notifying r change c) last ∧
      w' = {last with held := w.held} := by
  unfold notify at run
  rw [Action.read_bind, known] at run
  dsimp only at run
  rw [Action.read_bind] at run
  cases listed : (w.registry r).slots.get? c.name with
  | none =>
    rw [listed] at run
    cases run
    rw [World.observers_of_unheard listed, w.notifying_of_unheard change listed]
    exact ⟨rfl, w, .none w, rfl⟩
  | some xs =>
    rw [listed] at run
    dsimp only at run
    rw [Action.read_bind, Action.update_bind, Action.log_bind] at run
    rw [World.observers_of_listed listed, w.notifying_of_listed change listed]
    rcases Action.exists_of_bind run with ⟨e, failed, _⟩ | ⟨_, w₁, delivered, rest⟩
    · obtain ⟨_, run, _⟩ := Action.exists_of_holding failed
      cases (deliver_told run).1
    · obtain ⟨last, ended, rfl⟩ := Action.exists_of_holding delivered
      cases rest
      exact ⟨rfl, last, (deliver_told ended).2, rfl⟩

/-- **A notification tells the observers that were held when it started**: those that are counted
then, each of them once and in the order they were registered, even if nobody but the
notification holds them by the time it is their turn. A watcher whose subscription is gone
before the notification starts is not among them. -/
theorem notify_told {r : RegistryRef} {c : Change} {res : Except BindError Nat}
    (known : w.change? change = some c) (run : notify self r change w = some (res, w')) :
    ∃ live : List Observer, live.Sublist ((w.registry r).observers c.name) ∧
      (∀ x, .watcher x ∈ live ↔
        .watcher x ∈ (w.registry r).observers c.name ∧ .watcher x ∈ w.roots) ∧
      live.length = (Query.observerCount r c.name).answer w ∧ res = .ok live.length ∧
      (w.notifying r change c).watchers = w.watchers ∧
      (∀ x ∈ live, x.handle ∈ (w.notifying r change c).held) ∧
      ∃ last, Told self change live (w.notifying r change c) last ∧
        w' = {last with held := w.held} := by
  obtain ⟨ok, last, told, after⟩ := exists_of_notify known run
  refine ⟨_, List.filter_sublist, fun x => World.watcher_mem_liveObservers, ?_, ok,
    w.watchers_notifying r change c, fun x => World.handle_mem_held_notifying, last, told, after⟩
  exact List.countP_eq_length_filter.symm

/-! ### Two watchers of one attribute -/

namespace disloyalPair

/-- The first watcher lets go of the second. The second records if it is told of a change when its
subscription is gone. -/
def setup : Program Unit := do
  let r ← .request .newRegistry
  let o ← .request (.newObject
    { typeName := "Item", parent := none, attributes := .ofList [("x", .int 0)], members := []
      constants := .empty, storage := .empty, config := none })
  let first ← .request (.subscribe r "x" fun _ => .request (.release .subscriptions "second"))
  .request (.keep "first" (.subscription first))
  let second ← .request (.subscribe r "x" fun _ => do
    if (← Program.query (.kept .subscriptions "second")).isNone then
      .request (.record (.logged "late" .null)))
  .request (.keep "second" (.subscription second))
  let _ ← Program.request (.newChange ⟨.update, o, "x", .int 0, .int 1⟩)

def news : Change := ⟨.update, ⟨0⟩, "x", .int 0, .int 1⟩

/-- The world after that. -/
def start : World := (setup.run (perform 5) (.initial #[])).elim (.initial #[]) Prod.snd

/-- The world after a notification of the change. -/
def notified : World := (notify (perform 5) ⟨0⟩ ⟨1⟩ start).elim start Prod.snd

theorem start_pair : start.change? ⟨1⟩ = some news ∧
    (notify (perform 5) ⟨0⟩ ⟨1⟩ start).isSome = true ∧
    (Query.observerCount ⟨0⟩ "x").answer start = 2 ∧
    (start.registry ⟨0⟩).observers "x" = [.watcher ⟨0⟩, .watcher ⟨1⟩] := by
  decide +kernel

/-- The notification tells both watchers, one after the other, and that is how it ends. -/
theorem tells_both : ∃ last,
    Told (perform 5) ⟨1⟩ [.watcher ⟨0⟩, .watcher ⟨1⟩] (start.notifying ⟨0⟩ ⟨1⟩ news) last ∧
      notified = {last with held := start.held} := by
  obtain ⟨known, ends, both, listed⟩ := start_pair
  obtain ⟨⟨res, w'⟩, run⟩ := Option.isSome_iff_exists.1 ends
  obtain ⟨live, part, _, counted, _, _, _, last, told, after⟩ := notify_told known run
  rw [show news.name = "x" from rfl, listed] at part
  obtain rfl := part.eq_of_length (counted.trans both)
  have there : notified = w' := by rw [notified, run, Option.elim_some]
  exact ⟨last, told, there.trans after⟩

/-- The second watcher is told although its subscription is gone by then. -/
theorem tells_dropped :
    notified.desk.kept.get? (.subscriptions, "second") = none ∧ notified.desk.events.size = 1 := by
  decide +kernel

end disloyalPair

end LiveBinding
