import LiveBinding.Proofs.Deliveries
import LiveBinding.Proofs.Tables

/-! A registry as a plain list.

Whoever uses a registry may think of it as a list of subscriptions: a new one is added at the end,
and one that is let go is taken out. A notification calls those that are on the list for its
name when it starts. The table of a registry is not that list, since nobody takes out the
watchers that are let go before a notification comes across them. A world enrolls a list when
those watchers of the table that are still held are the ones on the list. -/
namespace LiveBinding

/-! ### Plain lists -/

/-- Subscriptions that have been made and not been let go, in the order in which they were made. -/
abbrev Roll := List (String × WatcherRef)

namespace Roll
variable (L M : Roll) (name : String)

/-- Who is subscribed to a name. -/
def on : List WatcherRef := (L.filter fun s => s.1 = name).map Prod.snd

theorem on_append : on (L ++ M) name = on L name ++ on M name := by
  simp [on]

theorem on_singleton (a : String) (x : WatcherRef) :
    on [(a, x)] name = if a = name then [x] else [] := by
  by_cases same : a = name <;> simp [on, same]

/-- Those who are left when some have been let go. -/
def without (xs : List WatcherRef) : Roll := L.filter fun s => !xs.contains s.2

theorem on_without (xs : List WatcherRef) :
    on (without L xs) name = (on L name).filter fun x => !xs.contains x := by
  rw [on, on, without, List.filter_map, List.filter_filter, List.filter_filter]
  congr 1
  refine List.filter_congr fun s _ => ?_
  exact Bool.and_comm ..

theorem without_nil : without L [] = L := by simp [without]

theorem without_cons (x : WatcherRef) (xs : List WatcherRef) :
    without L (x :: xs) = without (without L [x]) xs := by
  rw [without, without, without, List.filter_filter]
  refine List.filter_congr fun s _ => ?_
  simp [Bool.and_comm]

end Roll

/-! ### What is done with a registry -/

inductive Act where
  | subscribe (name : String) (x : WatcherRef)
  /-- A subscription is let go. -/
  | drop (x : WatcherRef)
  | count (name : String) (answer : Nat)
  /-- A notification starts. -/
  | notify (name : String)
  /-- A callback is called. What it does itself follows. -/
  | call (x : WatcherRef)
  /-- The innermost notification in progress returns. -/
  | done (answer : Nat)
deriving DecidableEq, Repr

/-- A list of subscriptions. And for each notification in progress, the innermost first, those that
it has yet to call, and how many it calls in all. -/
structure Plain where
  roll : Roll
  pending : List (List WatcherRef × Nat)
deriving DecidableEq, Repr

namespace Plain

def start : Plain := ⟨[], []⟩

/-- What a plain list makes of what is done, if that is what is done with a plain list: every answer
is the length of a list, a notification calls those that are subscribed when it starts, one
after the other, and nothing is let go while one is in progress. -/
def step (s : Plain) : Act → Option Plain
  | .subscribe name x =>
    if x ∈ s.roll.map Prod.snd then none else some {s with roll := s.roll ++ [(name, x)]}
  | .drop x => if s.pending = [] then some {s with roll := s.roll.without [x]} else none
  | .count name answer => if answer = (s.roll.on name).length then some s else none
  | .notify name =>
    some {s with pending := (s.roll.on name, (s.roll.on name).length) :: s.pending}
  | .call x =>
    match s.pending with
    | (y :: later, k) :: others =>
      if x = y then some {s with pending := (later, k) :: others} else none
    | _ => none
  | .done answer =>
    match s.pending with
    | ([], k) :: others => if answer = k then some {s with pending := others} else none
    | _ => none

def run (s : Plain) (acts : List Act) : Option Plain := acts.foldlM step s

variable {s t u : Plain} {acts acts' : List Act}

theorem run_append (first : s.run acts = some t) (next : t.run acts' = some u) :
    s.run (acts ++ acts') = some u := by
  rw [run, List.foldlM_append]
  rw [run] at first next
  rw [first]
  exact next

theorem run_cons {act : Act} (first : s.step act = some t) (next : t.run acts = some u) :
    s.run (act :: acts) = some u := by
  rw [run, List.foldlM_cons, first]
  exact next

/-- Letting several go, one after the other. -/
theorem run_drops (L : Roll) (xs : List WatcherRef) :
    run ⟨L, []⟩ (xs.map .drop) = some ⟨L.without xs, []⟩ := by
  induction xs generalizing L with
  | nil => rw [Roll.without_nil]; rfl
  | cons x rest ih =>
    rw [Roll.without_cons]
    exact run_cons rfl (ih _)

end Plain

/-! ### Tables -/

namespace Registry

theorem observers_add (R : Registry) (a name : String) (x : Observer) :
    (R.add a x).observers name = R.observers name ++ if a = name then [x] else [] := by
  unfold add observers
  rw [Dict.get?_insert]
  split
  · next same =>
    subst same
    rfl
  · rw [List.append_nil]

/-- Pruning takes out of one list those who fail the test. -/
theorem observers_prune (R : Registry) (a name : String) (keep : Observer → Bool) :
    (R.prune a keep).observers name =
      if a = name then (R.observers name).filter keep else R.observers name := by
  unfold prune observers
  cases listed : R.slots.get? a with
  | none =>
    dsimp only
    split
    · next same =>
      rw [← same, listed]
      rfl
    · rfl
  | some xs =>
    dsimp only
    rw [Dict.get?_insert]
    split
    · next same =>
      rw [← same, listed]
      rfl
    · rfl

end Registry

namespace World
variable {w w' : World} {r : RegistryRef}

/-- The watcher is in the table of the registry, held or not. -/
def Listed (w : World) (r : RegistryRef) (x : WatcherRef) : Prop :=
  ∃ name, .watcher x ∈ (w.registry r).observers name

/-- The table of the registry has nobody in it but watchers, and those who are held are the ones on
the list. -/
structure Enrolls (r : RegistryRef) (L : Roll) (w : World) : Prop where
  inside : r.index < w.registries.size
  made : ∀ {name y}, y ∈ (w.registry r).observers name →
    ∃ x : WatcherRef, y = .watcher x ∧ x.index < w.watchers.size
  live : ∀ name, w.liveObservers ((w.registry r).observers name) = (L.on name).map .watcher

/-- Watchers are there as long as they are held, so who is live depends on who is held. -/
theorem liveObservers_filter {xs : List Observer} {p : WatcherRef → Bool}
    (watchers : ∀ y ∈ xs, ∃ x : WatcherRef, y = .watcher x ∧
      (.watcher x ∈ w'.roots ↔ .watcher x ∈ w.roots ∧ p x = true)) :
    w'.liveObservers xs = (w.liveObservers xs).filter fun
      | .watcher x => p x
      | .link _ => false := by
  rw [liveObservers, liveObservers, List.filter_filter]
  refine List.filter_congr fun y mem => ?_
  obtain ⟨x, rfl, held⟩ := watchers y mem
  rw [Bool.eq_iff_iff, Bool.and_eq_true, Observer.handle, isLive_watcher, isLive_watcher, held]
  exact and_comm

theorem liveObservers_congr {xs : List Observer}
    (watchers : ∀ y ∈ xs, ∃ x : WatcherRef, y = .watcher x ∧
      (.watcher x ∈ w'.roots ↔ .watcher x ∈ w.roots)) :
    w'.liveObservers xs = w.liveObservers xs := by
  refine List.filter_congr fun y mem => ?_
  obtain ⟨x, rfl, held⟩ := watchers y mem
  rw [Bool.eq_iff_iff, Observer.handle, isLive_watcher, isLive_watcher, held]

namespace Enrolls
variable {L : Roll} (enrolls : w.Enrolls r L)
include enrolls

theorem mem_on {name : String} {x : WatcherRef} : x ∈ L.on name ↔
    .watcher x ∈ (w.registry r).observers name ∧ .watcher x ∈ w.roots := by
  have injective : Function.Injective Observer.watcher := fun _ _ same => Observer.watcher.inj same
  rw [← watcher_mem_liveObservers, enrolls.live, List.mem_map_of_injective injective]

/-- A count is a length. -/
theorem count (name : String) :
    (Query.observerCount r name).answer w = (L.on name).length := by
  have counted : (Query.observerCount r name).answer w =
      (w.liveObservers ((w.registry r).observers name)).length := List.countP_eq_length_filter
  rw [counted, enrolls.live, List.length_map]

/-- As long as the table is not changed, all that matters is who is let go. -/
theorem drop (xs : List WatcherRef) (table : w'.registry r = w.registry r)
    (registries : w.registries.size ≤ w'.registries.size)
    (watchers : w.watchers.size ≤ w'.watchers.size)
    (held : ∀ x, w.Listed r x → (.watcher x ∈ w'.roots ↔ .watcher x ∈ w.roots ∧ x ∉ xs)) :
    w'.Enrolls r (L.without xs) where
  inside := Nat.lt_of_lt_of_le enrolls.inside registries
  made mem := by
    rw [table] at mem
    obtain ⟨x, same, made⟩ := enrolls.made mem
    exact ⟨x, same, Nat.lt_of_lt_of_le made watchers⟩
  live name := by
    have each : ∀ y ∈ (w.registry r).observers name, ∃ x : WatcherRef, y = .watcher x ∧
        (.watcher x ∈ w'.roots ↔ .watcher x ∈ w.roots ∧ (!xs.contains x) = true) := by
      intro y mem
      obtain ⟨x, rfl, _⟩ := enrolls.made mem
      refine ⟨x, rfl, ?_⟩
      rw [held x ⟨name, mem⟩]
      simp
    rw [table, liveObservers_filter each, enrolls.live, List.filter_map, Roll.on_without]
    rfl

theorem keep (table : w'.registry r = w.registry r)
    (registries : w.registries.size ≤ w'.registries.size)
    (watchers : w.watchers.size ≤ w'.watchers.size)
    (held : ∀ x, w.Listed r x → (.watcher x ∈ w'.roots ↔ .watcher x ∈ w.roots)) :
    w'.Enrolls r L := by
  have kept := enrolls.drop [] table registries watchers fun x listed => by
    rw [held x listed]
    simp
  rwa [Roll.without_nil] at kept

/-- A new watcher is on no list yet. -/
theorem fresh : ⟨w.watchers.size⟩ ∉ L.map Prod.snd := by
  intro mem
  obtain ⟨⟨name, x⟩, here, last⟩ := List.mem_map.1 mem
  have on : x ∈ L.on name := List.mem_map.2 ⟨(name, x), List.mem_filter.2 ⟨here, by simp⟩, rfl⟩
  obtain ⟨y, same, made⟩ := enrolls.made (enrolls.mem_on.1 on).1
  cases same
  cases last
  exact absurd made (Nat.lt_irrefl _)

/-- A new watcher that somebody holds is added at the end. -/
theorem add {name : String}
    (table : w'.registry r = (w.registry r).add name (.watcher ⟨w.watchers.size⟩))
    (registries : w.registries.size ≤ w'.registries.size)
    (watchers : w.watchers.size < w'.watchers.size)
    (held : ∀ x, w.Listed r x → (.watcher x ∈ w'.roots ↔ .watcher x ∈ w.roots))
    (mine : .watcher ⟨w.watchers.size⟩ ∈ w'.roots) :
    w'.Enrolls r (L ++ [(name, ⟨w.watchers.size⟩)]) where
  inside := Nat.lt_of_lt_of_le enrolls.inside registries
  made {a y} mem := by
    rw [table, Registry.observers_add] at mem
    rcases List.mem_append.1 mem with old | new
    · obtain ⟨x, same, made⟩ := enrolls.made old
      exact ⟨x, same, Nat.lt_trans made watchers⟩
    · split at new
      · exact ⟨_, List.mem_singleton.1 new, watchers⟩
      · cases new
  live a := by
    have old : w'.liveObservers ((w.registry r).observers a) = (L.on a).map .watcher := by
      rw [← enrolls.live]
      refine liveObservers_congr fun y mem => ?_
      obtain ⟨x, rfl, _⟩ := enrolls.made mem
      exact ⟨x, rfl, held x ⟨a, mem⟩⟩
    have new : w'.isLive (Observer.watcher ⟨w.watchers.size⟩).handle = true := isLive_watcher.2 mine
    rw [table, Registry.observers_add, liveObservers, List.filter_append, ← liveObservers, old,
      Roll.on_append, Roll.on_singleton, List.map_append]
    congr 1
    split
    · exact List.filter_eq_self.2 fun y mem => by rwa [List.mem_singleton.1 mem]
    · rfl

/-- **Pruning changes no list.** Those who are forgotten were not held any more. -/
theorem prune {name : String} {xs : List Observer}
    (listed : (w.registry r).slots.get? name = some xs) :
    (w.modifyRegistry r (·.prune name (w.liveObservers xs).contains)).Enrolls r L := by
  have table : (w.modifyRegistry r (·.prune name (w.liveObservers xs).contains)).registry r =
      (w.registry r).prune name (w.liveObservers xs).contains := by
    rw [registry_modifyRegistry, if_pos ⟨rfl, enrolls.inside⟩]
  have here : (w.registry r).observers name = xs := by
    rw [Registry.observers, listed]
    rfl
  have roots {ys : List Observer} (watchers : ∀ y ∈ ys, ∃ x : WatcherRef, y = .watcher x) :
      (w.modifyRegistry r (·.prune name (w.liveObservers xs).contains)).liveObservers ys =
        w.liveObservers ys := by
    refine liveObservers_congr fun y mem => ?_
    obtain ⟨x, rfl⟩ := watchers y mem
    exact ⟨x, rfl, Iff.rfl⟩
  have watcher {a : String} : ∀ y ∈ (w.registry r).observers a, ∃ x : WatcherRef, y = .watcher x :=
    fun y mem => (enrolls.made mem).imp fun _ both => both.1
  refine ⟨Nat.lt_of_lt_of_eq enrolls.inside Array.size_modify.symm, fun mem => ?_, fun a => ?_⟩
  · rw [table, Registry.observers_prune] at mem
    split at mem
    · exact enrolls.made (List.mem_of_mem_filter mem)
    · exact enrolls.made mem
  · rw [table, Registry.observers_prune, ← enrolls.live]
    split
    · next same =>
      subst same
      rw [roots fun y mem => watcher y (List.mem_of_mem_filter mem), here]
      refine (List.filter_filter ..).trans (List.filter_congr fun y mem => ?_)
      rw [Bool.and_eq_left_iff_imp, List.contains_iff_mem]
      exact fun live => List.mem_filter.2 ⟨mem, live⟩
    · exact roots watcher

end Enrolls

end World

end LiveBinding
