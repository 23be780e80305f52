import LiveBinding.Proofs.Reachable
import LiveBinding.Proofs.Roll
import LiveBinding.Proofs.Runs

/-! Histories of a registry.

A host makes a registry and uses it, and so do the callbacks that a notification calls, while it is
in progress. Whoever subscribes keeps the subscription, and only the host lets subscriptions go. A
history puts down what is done, in the order of time, as the programs run. It is what is done with
a plain list of subscriptions. -/
namespace LiveBinding

/-! ### Who keeps watchers -/

namespace World
variable {w w' u : World} {r : RegistryRef} {x : WatcherRef}

/-- The watcher is among the things that are kept under labels. -/
def Stores (w : World) (x : WatcherRef) : Prop :=
  .watcher x ∈ w.desk.kept.entries.flatMap fun e => e.2.handles

theorem watcher_mem_roots : .watcher x ∈ w.roots ↔ w.Stores x ∨ .watcher x ∈ w.held :=
  List.mem_append

/-- The table of the registry is as it was, and so are the subscriptions that are kept. -/
structure Leaves (r : RegistryRef) (w u : World) : Prop where
  table : u.registry r = w.registry r
  stored : ∀ x, w.Listed r x → (u.Stores x ↔ w.Stores x)

/-- Somebody has subscribed, and something is kept under a label. -/
def enroll (w : World) (r : RegistryRef) (name : String) (code : ObjectId → Program Unit)
    (label : String) (kept : LiveBinding.Kept) : World :=
  ((w.addWatcher ⟨code⟩).1.modifyRegistry r (·.add name (.watcher ⟨w.watchers.size⟩))).modifyDesk
    (·.keep label kept)

/-- What is kept under a label that is free is kept besides the rest. -/
theorem stores_keep (kept : LiveBinding.Kept) {label : String}
    (free : w.desk.kept.get? (kept.drawer, label) = none) :
    (w.modifyDesk (·.keep label kept)).Stores x ↔ w.Stores x ∨ Handle.watcher x ∈ kept.handles := by
  have entries (es : List ((Drawer × String) × LiveBinding.Kept))
      (none : Dict.find (kept.drawer, label) es = none) :
      Dict.put (kept.drawer, label) kept es = es ++ [((kept.drawer, label), kept)] := by
    induction es with
    | nil => rfl
    | cons e rest ih =>
      obtain ⟨k, v⟩ := e
      by_cases same : k = (kept.drawer, label)
      · simp [Dict.find, same] at none
      · rw [Dict.find, if_neg same] at none
        rw [Dict.put, if_neg same, ih none]
        rfl
  show Handle.watcher x ∈ (Dict.put (kept.drawer, label) kept w.desk.kept.entries).flatMap _ ↔ _
  rw [entries _ free, List.flatMap_append, List.mem_append, List.flatMap_singleton]
  rfl

/-- Whoever is in the table is in one of its entries. -/
theorem Listed.exists_entry (listed : w.Listed r x) :
    ∃ e ∈ (w.registry r).slots.entries, .watcher x ∈ e.2 := by
  obtain ⟨name, mem⟩ := listed
  unfold Registry.observers at mem
  cases slot : (w.registry r).slots.get? name with
  | none =>
    rw [slot] at mem
    cases mem
  | some xs =>
    rw [slot] at mem
    exact ⟨(name, xs), Dict.get?_eq_some.1 slot, mem⟩

/-- A subscription that is kept under a free label takes nothing from those in the table. -/
theorem stores_enroll {name label : String} {code : ObjectId → Program Unit}
    (free : w.desk.kept.get? (.subscriptions, label) = none)
    (others : ∀ e ∈ (w.registry r).slots.entries, .watcher ⟨w.watchers.size⟩ ∉ e.2)
    (listed : w.Listed r x) :
    (w.enroll r name code label (.subscription ⟨name, ⟨w.watchers.size⟩⟩)).Stores x ↔
    w.Stores x := by
  refine (stores_keep (.subscription _) free).trans (or_iff_left fun mem => ?_)
  obtain ⟨e, entry, here⟩ := listed.exists_entry
  cases List.mem_singleton.1 mem
  exact others e entry here

end World

/-! ### What is done, as programs run -/

/-- What is to be done: a program is to run, or observers are to be told of a change. -/
inductive Task where
  | run (p : Program Unit)
  | tell (change : ObjectId) (xs : List Observer)

/-- The task ends in a world. -/
def Task.Ends (n : Nat) (w w' : World) : Task → Prop
  | .run p => ∃ res, p.run (perform n) w = some (res, w')
  | .tell change xs => deliver (perform n) change xs w = some (.ok (), w')

/-- The request is one of those that registries are for. -/
def Request.Concerns (r : RegistryRef) : {α : Type} → Request α → Prop
  | _, .subscribe s _ _ | _, .notify s _ | _, .query (.observerCount s _) => s = r
  | _, _ => False

/-- What is done with a registry while a task is carried out, within so many nested steps. Requests
that are not meant for the registry leave it alone. Whoever subscribes keeps the subscription at
once, and nothing of what was kept is lost by that. -/
inductive Course (r : RegistryRef) : Nat → Task → World → List Act → World → Prop where
  | finish {n : Nat} {w : World} (res : Except BindError Unit) :
    Course r n (.run (.done res)) w [] w
  | other {n : Nat} {β : Type} {q : Request β} {k : Except BindError β → Program Unit}
      {x : Except BindError β} {w u w' : World} {acts : List Act} (plain : ¬ q.Concerns r)
      (answer : perform n β q w = some (x, u)) (leaves : w.Leaves r u)
      (rest : Course r n (.run (k x)) u acts w') : Course r n (.run (.ask q k)) w acts w'
  | count {n : Nat} {name : String} {k : Except BindError Nat → Program Unit} {w w' : World}
      {acts : List Act}
      (rest : Course r (n + 1) (.run (k (.ok ((Query.observerCount r name).answer w)))) w acts w') :
      Course r (n + 1) (.run (.ask (.query (.observerCount r name)) k)) w
        (.count name ((Query.observerCount r name).answer w) :: acts) w'
  | subscribe {n : Nat} {name label : String} {code : ObjectId → Program Unit} {kept : Kept}
      {k : Except BindError Subscription → Program Unit} {k' : Except BindError Unit → Program Unit}
      {w w' : World} {acts : List Act}
      (keeps : k (.ok ⟨name, ⟨w.watchers.size⟩⟩) = .ask (.keep label kept) k')
      (mine : .watcher ⟨w.watchers.size⟩ ∈ kept.handles)
      (others : ∀ x, w.Listed r x → ((w.enroll r name code label kept).Stores x ↔ w.Stores x))
      (rest : Course r (n + 1) (.run (k' (.ok ()))) (w.enroll r name code label kept) acts w') :
      Course r (n + 1) (.run (.ask (.subscribe r name code) k)) w
        (.subscribe name ⟨w.watchers.size⟩ :: acts) w'
  | notify {n : Nat} {change : ObjectId} {c : Change} {xs : List Observer}
      {k : Except BindError Nat → Program Unit} {w last w' : World} {acts acts' : List Act}
      (what : w.change? change = some c) (listed : (w.registry r).slots.get? c.name = some xs)
      (told : Course r n (.tell change (w.liveObservers xs)) (w.notifying r change c) acts last)
      (rest : Course r (n + 1) (.run (k (.ok (w.liveObservers xs).length)))
        {last with held := w.held} acts' w') :
      Course r (n + 1) (.run (.ask (.notify r change) k)) w
        (.notify c.name :: acts ++ .done (w.liveObservers xs).length :: acts') w'
  /-- Nobody has ever subscribed to the name. -/
  | unheard {n : Nat} {change : ObjectId} {c : Change} {k : Except BindError Nat → Program Unit}
      {w w' : World} {acts : List Act}
      (what : w.change? change = some c) (listed : (w.registry r).slots.get? c.name = none)
      (rest : Course r (n + 1) (.run (k (.ok 0))) w acts w') :
      Course r (n + 1) (.run (.ask (.notify r change) k)) w (.notify c.name :: .done 0 :: acts) w'
  | told {n : Nat} {change : ObjectId} {w : World} : Course r n (.tell change []) w [] w
  | call {n : Nat} {change : ObjectId} {x : WatcherRef} {f : Watcher} {later : List Observer}
      {w u w' : World} {acts acts' : List Act} (found : w.watchers[x.index]? = some f)
      (called : Course r n (.run (f.code change)) (w.tell (.watcher x) change) acts u)
      (others : Course r n (.tell change later) u acts' w') :
      Course r n (.tell change (.watcher x :: later)) w (.call x :: acts ++ acts') w'

/-- A program goes on from the answer it gets. -/
theorem Program.run_of_answer {self : Performer} {α β : Type} {q : Request β}
    {k : Except BindError β → Program α} {x : Except BindError β} {w u : World}
    (answer : self β q w = some (x, u)) : (Program.ask q k).run self w = (k x).run self u := by
  simp only [Program.run, answer]

namespace Course
variable {r : RegistryRef} {n : Nat} {task : Task} {w w' : World} {acts : List Act}

/-- What is put down is what happens: the task is carried out, and ends in that world. -/
theorem ends (course : Course r n task w acts w') : task.Ends n w w' := by
  induction course with
  | finish res => exact ⟨res, rfl⟩
  | other plain answer leaves rest ih =>
    obtain ⟨res, ran⟩ := ih
    exact ⟨res, (Program.run_of_answer answer).trans ran⟩
  | count rest ih => exact ih
  | subscribe keeps mine others rest ih =>
    obtain ⟨res, ran⟩ := ih
    refine ⟨res, (Program.run_of_answer (x := .ok _) rfl).trans ?_⟩
    rw [keeps]
    exact ran
  | notify what listed told rest told_ih ih =>
    obtain ⟨res, ran⟩ := ih
    exact ⟨res, (Program.run_of_answer (notify_eq what listed told_ih)).trans ran⟩
  | unheard what listed rest ih =>
    obtain ⟨res, ran⟩ := ih
    exact ⟨res, (Program.run_of_answer (notify_unheard what listed)).trans ran⟩
  | told => rfl
  | call found called others called_ih ih =>
    obtain ⟨res, ran⟩ := called_ih
    show (inform _ _ _ >>= _) _ = _
    rw [Action.bind_apply, inform_eq found ran]
    exact ih

theorem spans (course : Course r n task w acts w') : w.Spans w' := by
  have F := World.frame_spans
  cases task with
  | run p =>
    obtain ⟨res, ran⟩ := course.ends
    exact ((F.performing n).run p).keeps _ _ _ ran
  | tell change xs => exact ((F.performing n).deliver F change xs).keeps _ _ _ course.ends

end Course

/-! ### What is done with a plain list -/

namespace World
variable {w w' : World} {r : RegistryRef} {L : Roll}

/-- What is kept remains so. -/
def Spares (r : RegistryRef) (w w' : World) : Prop :=
  ∀ x, w.Listed r x → w.Stores x → w'.Listed r x ∧ w'.Stores x

theorem Spares.trans {w₁ w₂ w₃ : World} (first : w₁.Spares r w₂) (next : w₂.Spares r w₃) :
    w₁.Spares r w₃ := fun x listed stored =>
  have there := first x listed stored
  next x there.1 there.2

theorem Leaves.spares (leaves : w.Leaves r w') : w.Spares r w' := fun x listed stored => by
  refine ⟨?_, (leaves.stored x listed).2 stored⟩
  obtain ⟨name, mem⟩ := listed
  exact ⟨name, leaves.table ▸ mem⟩

/-- Requests that leave a registry alone leave its list alone. -/
theorem Enrolls.leave (enrolls : w.Enrolls r L) (leaves : w.Leaves r w') (spans : w.Spans w') :
    w'.Enrolls r L :=
  enrolls.keep leaves.table spans.registries spans.watchers_size fun x listed => by
    rw [watcher_mem_roots, watcher_mem_roots, leaves.stored x listed, spans.held]

/-- Being told changes nothing about who is on the list. -/
theorem Enrolls.tell (enrolls : w.Enrolls r L) (x : WatcherRef) (change : ObjectId) :
    (w.tell (.watcher x) change).Enrolls r L :=
  enrolls.keep rfl (Nat.le_refl _) (Nat.le_refl _) fun _ _ => Iff.rfl

theorem Enrolls.enroll (enrolls : w.Enrolls r L) {name label : String}
    {code : ObjectId → Program Unit} {kept : LiveBinding.Kept}
    (mine : .watcher ⟨w.watchers.size⟩ ∈ kept.handles)
    (others : ∀ x, w.Listed r x → ((w.enroll r name code label kept).Stores x ↔ w.Stores x)) :
    (w.enroll r name code label kept).Enrolls r (L ++ [(name, ⟨w.watchers.size⟩)]) ∧
      w.Spares r (w.enroll r name code label kept) := by
  have table : (w.enroll r name code label kept).registry r =
      (w.registry r).add name (.watcher ⟨w.watchers.size⟩) := by
    show ((w.addWatcher ⟨code⟩).1.modifyRegistry r _).registry r = _
    rw [registry_modifyRegistry, if_pos ⟨rfl, enrolls.inside⟩]
    rfl
  have watchers : w.watchers.size < (w.enroll r name code label kept).watchers.size := by
    show _ < (w.watchers.push _).size
    rw [Array.size_push]
    exact Nat.lt_succ_self _
  have stored : (w.enroll r name code label kept).Stores ⟨w.watchers.size⟩ :=
    List.mem_flatMap.2 ⟨((kept.drawer, label), kept),
      Dict.get?_eq_some.1 (Dict.get?_insert_self ..), mine⟩
  refine ⟨enrolls.add table (Nat.le_of_eq Array.size_modify.symm) watchers (fun x listed => ?_)
    (watcher_mem_roots.2 (.inl stored)), fun x listed kept => ⟨?_, (others x listed).2 kept⟩⟩
  · rw [watcher_mem_roots, watcher_mem_roots, others x listed]
    rfl
  · obtain ⟨a, mem⟩ := listed
    refine ⟨a, ?_⟩
    rw [table, Registry.observers_add]
    exact List.mem_append_left _ mem

section
variable {change : ObjectId} {c : Change} {xs : List Observer} {x : WatcherRef}
variable (listed : (w.registry r).slots.get? c.name = some xs)
include listed

/-- A notification holds those whom it calls. -/
theorem held_notifying : .watcher x ∈ (w.notifying r change c).held ↔
    .watcher x ∈ w.liveObservers xs ∨ .watcher x ∈ w.held := by
  rw [w.notifying_of_listed change listed]
  show Handle.watcher x ∈ (Handle.object change :: _) ++ w.held ↔ _
  rw [List.mem_append, List.mem_cons]
  refine or_congr_left ⟨?_, fun mem => .inr (List.mem_map.2 ⟨_, mem, rfl⟩)⟩
  rintro (same | live)
  · cases same
  · obtain ⟨y, mem, same⟩ := List.mem_map.1 live
    cases y with
    | watcher z =>
      cases same
      exact mem
    | link l => cases same

theorem stores_notifying : (w.notifying r change c).Stores x ↔ w.Stores x := by
  rw [w.notifying_of_listed change listed]
  rfl

/-- A notification holds on to nobody who is not held. -/
theorem roots_notifying : .watcher x ∈ (w.notifying r change c).roots ↔ .watcher x ∈ w.roots := by
  rw [watcher_mem_roots, watcher_mem_roots, stores_notifying listed, held_notifying listed]
  constructor
  · rintro (stored | live | held)
    · exact .inl stored
    · exact watcher_mem_roots.1 (watcher_mem_liveObservers.1 live).2
    · exact .inr held
  · exact Or.imp_right .inr

end

theorem Enrolls.notifying (enrolls : w.Enrolls r L) (change : ObjectId) {c : Change}
    {xs : List Observer} (listed : (w.registry r).slots.get? c.name = some xs) :
    (w.notifying r change c).Enrolls r L ∧ w.Spares r (w.notifying r change c) := by
  have pruned := enrolls.prune listed
  have after : (w.notifying r change c).Enrolls r L := by
    rw [w.notifying_of_listed change listed]
    refine pruned.keep rfl (Nat.le_refl _) (Nat.le_refl _) fun x _ => ?_
    have roots : .watcher x ∈ (w.notifying r change c).roots ↔ .watcher x ∈ w.roots :=
      roots_notifying listed
    rwa [w.notifying_of_listed change listed] at roots
  refine ⟨after, fun x there stored => ?_⟩
  have kept : (w.notifying r change c).Stores x := (stores_notifying listed).2 stored
  obtain ⟨name, mem⟩ := there
  have on : x ∈ L.on name := enrolls.mem_on.2 ⟨mem, watcher_mem_roots.2 (.inl stored)⟩
  exact ⟨⟨name, (after.mem_on.1 on).1⟩, kept⟩

/-- When a notification has ended, those whom it held are still kept. -/
theorem Enrolls.notified (enrolls : w.Enrolls r L) {change : ObjectId} {c : Change}
    {xs : List Observer} {last : World} {L' : Roll}
    (listed : (w.registry r).slots.get? c.name = some xs) (after : last.Enrolls r L')
    (spares : (w.notifying r change c).Spares r last)
    (spans : (w.notifying r change c).Spans last) :
    World.Enrolls r L' {last with held := w.held} := by
  refine after.keep rfl (Nat.le_refl _) (Nat.le_refl _) fun x _ => ?_
  rw [watcher_mem_roots, watcher_mem_roots, spans.held, held_notifying listed]
  refine or_congr_right' fun unstored => ⟨.inr, ?_⟩
  rintro (live | held)
  · -- whoever was kept under a label still is
    have here : .watcher x ∈ xs := List.mem_of_mem_filter live
    have there : w.Listed r x := ⟨c.name, by rwa [Registry.observers, listed]⟩
    rcases watcher_mem_roots.1 (watcher_mem_liveObservers.1 live).2 with stored | held
    · have started := (enrolls.notifying change listed).2 x there stored
      exact absurd (spares x started.1 started.2).2 unstored
    · exact held
  · exact held

end World

/-- What is done in a task is done with a plain list, whatever notifications are in progress.
Telling observers is part of the innermost one, which has yet to call them. -/
def Task.Plainly (L : Roll) (acts : List Act) (L' : Roll) : Task → Prop
  | .run _ => ∀ P, Plain.run ⟨L, P⟩ acts = some ⟨L', P⟩
  | .tell _ xs => ∀ ys k P, xs = ys.map .watcher →
    Plain.run ⟨L, (ys, k) :: P⟩ acts = some ⟨L', ([], k) :: P⟩

theorem Course.plain {r : RegistryRef} {n : Nat} {task : Task} {w w' : World} {acts : List Act}
    {L : Roll} (course : Course r n task w acts w') (enrolls : w.Enrolls r L) :
    ∃ L', w'.Enrolls r L' ∧ w.Spares r w' ∧ task.Plainly L acts L' := by
  induction course generalizing L with
  | finish res => exact ⟨L, enrolls, fun _ listed stored => ⟨listed, stored⟩, fun _ => rfl⟩
  | other plain answer leaves rest ih =>
    have spans := World.frame_spans.perform _ _ _ _ _ answer
    obtain ⟨L', after, spares, ran⟩ := ih (enrolls.leave leaves spans)
    exact ⟨L', after, leaves.spares.trans spares, ran⟩
  | count rest ih =>
    obtain ⟨L', after, spares, ran⟩ := ih enrolls
    refine ⟨L', after, spares, fun P => Plain.run_cons (if_pos ?_) (ran P)⟩
    exact enrolls.count _
  | subscribe keeps mine others rest ih =>
    obtain ⟨enrolled, kept⟩ := enrolls.enroll mine others
    obtain ⟨L', after, spares, ran⟩ := ih enrolled
    exact ⟨L', after, kept.trans spares, fun P => Plain.run_cons (if_neg enrolls.fresh) (ran P)⟩
  | @notify n change c xs k w last w' acts acts' what listed told rest told_ih ih =>
    obtain ⟨started, kept⟩ := enrolls.notifying change listed
    obtain ⟨L₁, called, spares, ran⟩ := told_ih started
    obtain ⟨L', after, spares', ran'⟩ := ih (enrolls.notified listed called spares told.spans)
    have live : w.liveObservers xs = (L.on c.name).map .watcher := by
      rw [← enrolls.live, Registry.observers, listed]
      rfl
    have count : (w.liveObservers xs).length = (L.on c.name).length := by
      rw [live, List.length_map]
    refine ⟨L', after, (kept.trans spares).trans spares', fun P => ?_⟩
    refine Plain.run_append (Plain.run_cons rfl (ran (L.on c.name) _ P live)) ?_
    exact Plain.run_cons (if_pos count) (ran' P)
  | @unheard n change c k w w' acts what listed rest ih =>
    obtain ⟨L', after, spares, ran⟩ := ih enrolls
    have nobody : L.on c.name = [] := by
      have live := enrolls.live c.name
      rw [Registry.observers, listed] at live
      exact List.map_eq_nil_iff.1 live.symm
    refine ⟨L', after, spares, fun P => Plain.run_cons rfl (Plain.run_cons ?_ (ran P))⟩
    simp [Plain.step, nobody]
  | told =>
    refine ⟨L, enrolls, fun _ listed stored => ⟨listed, stored⟩, fun ys k P same => ?_⟩
    rw [List.map_eq_nil_iff.1 same.symm]
    rfl
  | call found called others called_ih ih =>
    obtain ⟨L₁, between, spares, ran⟩ := called_ih (enrolls.tell _ _)
    obtain ⟨L', after, spares', ran'⟩ := ih between
    refine ⟨L', after, spares.trans spares', fun ys k P same => ?_⟩
    obtain ⟨y, zs, rfl, first, others⟩ := List.map_eq_cons_iff.1 same.symm
    cases first
    refine Plain.run_append (Plain.run_cons (if_pos rfl) (ran _)) (ran' zs k P others.symm)

/-! ### Histories -/

/-- Of the watchers in the table of the registry, these are let go and no others. -/
structure World.LetsGo (r : RegistryRef) (xs : List WatcherRef) (w w' : World) : Prop where
  table : w'.registry r = w.registry r
  theirs : ∀ x ∈ xs, w.Listed r x ∧ .watcher x ∈ w.roots
  held : ∀ x, w.Listed r x → (.watcher x ∈ w'.roots ↔ .watcher x ∈ w.roots ∧ x ∉ xs)

/-- What has been done with a registry since it was made. The host runs programs, and between
them it lets go of subscriptions by what it asks for and by what it holds. The table may be pruned
at any time, the way a notification does it. Nothing is put down for that. -/
inductive History (r : RegistryRef) : List Act → World → Prop where
  | start {n : Nat} {w w' : World} (reached : Reachable w)
      (made : perform n _ .newRegistry w = some (.ok r, w')) : History r [] w'
  | run {n : Nat} {p : Program Unit} {acts acts' : List Act} {w w' : World}
      (before : History r acts w) (course : Course r n (.run p) w acts' w') :
      History r (acts ++ acts') w'
  | ask {n : Nat} {α : Type} {q : Request α} {res : Except BindError α} {xs : List WatcherRef}
      {acts : List Act} {w w' : World} (before : History r acts w) (plain : ¬ q.Concerns r)
      (answer : perform n α q w = some (res, w')) (drops : w.LetsGo r xs w') :
      History r (acts ++ xs.map .drop) w'
  | hold {hs : List Handle} {xs : List WatcherRef} {acts : List Act} {w : World}
      (before : History r acts w) (drops : w.LetsGo r xs {w with held := hs}) :
      History r (acts ++ xs.map .drop) {w with held := hs}
  | prune {name : String} {xs : List Observer} {acts : List Act} {w : World}
      (before : History r acts w) (listed : (w.registry r).slots.get? name = some xs) :
      History r acts (w.modifyRegistry r (·.prune name (w.liveObservers xs).contains))

namespace History
variable {r : RegistryRef} {acts : List Act} {w : World}

/-- What has been done is what is done with a plain list. -/
theorem enrolls (history : History r acts w) :
    ∃ L, Plain.start.run acts = some ⟨L, []⟩ ∧ w.Enrolls r L := by
  induction history with
  | @start n w w' reached made =>
    cases n with
    | zero => cases made
    | succ n =>
      have new : w' = (w.addRegistry .empty).1 := (Prod.mk.inj (Option.some.inj made)).2.symm
      have index : r = ⟨w.registries.size⟩ :=
        (Except.ok.inj (Prod.mk.inj (Option.some.inj made)).1).symm
      have empty : w'.registry r = .empty := by
        rw [new, World.registry_addRegistry, if_pos (index ▸ rfl)]
      refine ⟨[], rfl, ?_, fun mem => ?_, fun name => ?_⟩
      · rw [new, index]
        exact Nat.lt_of_lt_of_eq (Nat.lt_succ_self _) (Array.size_push ..).symm
      · rw [empty] at mem
        cases mem
      · rw [empty]
        rfl
  | run before course ih =>
    obtain ⟨L, ran, here⟩ := ih
    obtain ⟨L', after, _, ran'⟩ := course.plain here
    exact ⟨L', Plain.run_append ran (ran' []), after⟩
  | ask before plain answer drops ih =>
    obtain ⟨L, ran, here⟩ := ih
    have spans := World.frame_spans.perform _ _ _ _ _ answer
    refine ⟨_, Plain.run_append ran (Plain.run_drops L _), ?_⟩
    exact here.drop _ drops.table spans.registries spans.watchers_size drops.held
  | hold before drops ih =>
    obtain ⟨L, ran, here⟩ := ih
    refine ⟨_, Plain.run_append ran (Plain.run_drops L _), ?_⟩
    exact here.drop _ drops.table (Nat.le_refl _) (Nat.le_refl _) drops.held
  | prune before listed ih =>
    obtain ⟨L, ran, here⟩ := ih
    exact ⟨L, ran, here.prune listed⟩

end History

/-! ### A watcher that subscribes another -/

namespace lateComer

/-- Whoever is told of a change has another watcher subscribe. -/
def again (_ : ObjectId) : Program Unit :=
  .ask (.subscribe ⟨1⟩ "x" fun _ => .done (.ok ())) fun
    | .ok s => .ask (.keep "b" (.subscription s)) .done
    | .error e => .done (.error e)

def setup : Program Unit := do
  let o ← .request (.newObject
    { typeName := "Item", parent := none, attributes := .ofList [("x", .int 0)], members := []
      constants := .empty, storage := .empty, config := none })
  .request (.keep "item" (.object o))
  let c ← .request (.newChange ⟨.update, o, "x", .int 0, .int 1⟩)
  .request (.keep "change" (.change c))

/-- A watcher subscribes and is told of the change. -/
def opening : Program Unit :=
  .ask (.subscribe ⟨1⟩ "x" again) fun
    | .ok s => .ask (.keep "a" (.subscription s)) fun _ => .ask (.notify ⟨1⟩ ⟨1⟩) fun _ =>
      .ask (.query (.observerCount ⟨1⟩ "x")) fun _ => .done (.ok ())
    | .error e => .done (.error e)

/-- Later on, whoever is still subscribed is told of it. -/
def closing : Program Unit :=
  .ask (.notify ⟨1⟩ ⟨1⟩) fun _ => .ask (.query (.observerCount ⟨1⟩ "x")) fun _ => .done (.ok ())

def change : Change := ⟨.update, ⟨0⟩, "x", .int 0, .int 1⟩

/-! The worlds that follow each other. -/

def before : World := (setup.run (perform 5) (.initial #[])).elim (.initial #[]) Prod.snd

def made : World := (before.addRegistry .empty).1

def subscribed : World :=
  made.enroll ⟨1⟩ "x" again "a" (.subscription ⟨"x", ⟨made.watchers.size⟩⟩)

def calling : World := subscribed.notifying ⟨1⟩ ⟨1⟩ change

def called : World := calling.tell (.watcher ⟨0⟩) ⟨1⟩

def joined : World :=
  called.enroll ⟨1⟩ "x" (fun _ => .done (.ok ())) "b" (.subscription ⟨"x", ⟨called.watchers.size⟩⟩)

def told : World := {joined with held := subscribed.held}

/-- The host has let go of the first subscription. -/
def dropped : World := told.modifyDesk (·.release .subscriptions "a")

def callingAgain : World := dropped.notifying ⟨1⟩ ⟨1⟩ change

def toldAgain : World := {callingAgain.tell (.watcher ⟨1⟩) ⟨1⟩ with held := dropped.held}

theorem counted : made.watchers.size = 0 ∧ called.watchers.size = 1 ∧
    (Query.observerCount ⟨1⟩ "x").answer told = 2 ∧
    (Query.observerCount ⟨1⟩ "x").answer toldAgain = 1 := by
  decide +kernel

/-- What is done in the first part. -/
theorem opens : Course ⟨1⟩ 2 (.run opening) made
    [.subscribe "x" ⟨0⟩, .notify "x", .call ⟨0⟩, .subscribe "x" ⟨1⟩, .done 1, .count "x" 2]
    told := by
  obtain ⟨none, one, two, _⟩ := counted
  have first : ∀ x, made.Listed ⟨1⟩ x → (subscribed.Stores x ↔ made.Stores x) := by
    intro x
    exact World.stores_enroll rfl (by decide +kernel)
  have second : ∀ x, called.Listed ⟨1⟩ x → (joined.Stores x ↔ called.Stores x) := by
    intro x
    exact World.stores_enroll rfl (by decide +kernel)
  have live : subscribed.liveObservers [.watcher ⟨0⟩] = [.watcher ⟨0⟩] := by decide +kernel
  have subscribes : Course ⟨1⟩ 1 (.run (again ⟨1⟩)) called
      [.subscribe "x" ⟨called.watchers.size⟩] joined :=
    .subscribe rfl (List.mem_singleton_self _) second (.finish _)
  have delivered : Course ⟨1⟩ 1 (.tell ⟨1⟩ (subscribed.liveObservers [.watcher ⟨0⟩])) calling
      [.call ⟨0⟩, .subscribe "x" ⟨1⟩] joined := by
    rw [live, ← one]
    exact .call (f := ⟨again⟩) rfl subscribes .told
  have course : Course ⟨1⟩ 2 (.run opening) made
      (.subscribe "x" ⟨made.watchers.size⟩ :: (.notify "x" :: [.call ⟨0⟩, .subscribe "x" ⟨1⟩] ++
        .done (subscribed.liveObservers [.watcher ⟨0⟩]).length ::
        [.count "x" ((Query.observerCount ⟨1⟩ "x").answer told)])) told :=
    .subscribe rfl (List.mem_singleton_self _) first
      (.notify (c := change) rfl rfl delivered (.count (.finish _)))
  rwa [none, live, two] at course

/-- The host lets go of the first watcher. -/
theorem drops : told.LetsGo ⟨1⟩ [⟨0⟩] dropped where
  table := rfl
  theirs x mem := by
    cases List.mem_singleton.1 mem
    exact ⟨⟨"x", by decide +kernel⟩, by decide +kernel⟩
  held x listed := by
    have listing : ∀ e ∈ (told.registry ⟨1⟩).slots.entries, ∀ y ∈ e.2, y = .watcher ⟨0⟩ ∨
        y = .watcher ⟨1⟩ := by decide +kernel
    obtain ⟨e, entry, here⟩ := listed.exists_entry
    rcases listing e entry _ here with same | same
    · cases same
      decide +kernel
    · cases same
      decide +kernel

/-- What is done in the second part. -/
theorem closes : Course ⟨1⟩ 2 (.run closing) dropped
    [.notify "x", .call ⟨1⟩, .done 1, .count "x" 1] toldAgain := by
  have live : dropped.liveObservers [.watcher ⟨0⟩, .watcher ⟨1⟩] = [.watcher ⟨1⟩] := by
    decide +kernel
  have delivered : Course ⟨1⟩ 1 (.tell ⟨1⟩ (dropped.liveObservers [.watcher ⟨0⟩, .watcher ⟨1⟩]))
      callingAgain [.call ⟨1⟩] (callingAgain.tell (.watcher ⟨1⟩) ⟨1⟩) := by
    rw [live]
    exact .call (f := ⟨fun _ => .done (.ok ())⟩) rfl (.finish _) .told
  have course : Course ⟨1⟩ 2 (.run closing) dropped
      (.notify "x" :: [.call ⟨1⟩] ++
        .done (dropped.liveObservers [.watcher ⟨0⟩, .watcher ⟨1⟩]).length ::
        [.count "x" ((Query.observerCount ⟨1⟩ "x").answer toldAgain)]) toldAgain :=
    .notify (c := change) rfl rfl delivered (.count (.finish _))
  rwa [live, counted.2.2.2] at course

theorem history : History ⟨1⟩
    [.subscribe "x" ⟨0⟩, .notify "x", .call ⟨0⟩, .subscribe "x" ⟨1⟩, .done 1, .count "x" 2,
      .drop ⟨0⟩, .notify "x", .call ⟨1⟩, .done 1, .count "x" 1] toldAgain := by
  have reached : Reachable before := (Reachable.start #[]).final 5 setup
  have start : History ⟨1⟩ [] made := .start (n := 1) reached rfl
  have released : History ⟨1⟩ _ dropped := .ask (n := 1) (q := .release .subscriptions "a")
    (start.run opens) id rfl drops
  exact released.run closes

end lateComer

end LiveBinding
