import LiveBinding.Proofs.Attendance

/-! Replaying changes.

Whoever attends to an attribute while its changes come one at a time gets a faithful log of it.
Each operation on the attribute delivers one change or none, and the changes that have been
delivered, replayed in order, come to what is stored. -/
namespace LiveBinding
open World
variable {a : Dependency} {x : WatcherRef} {f : Option FunctionRef} {w w' u : World}
  {self : Performer} {n : Nat}

/-! ### One change -/

namespace Move
variable {move : Move} {c : Change} {d : Declared} {r : Except BindError Unit}

theorem Sent.held (sent : Sent a.object a.name w move c u) : ∃ hs, u.held = hs ++ w.held := by
  cases sent with
  | create | update | event => exact ⟨[.object a.object], rfl⟩
  | delete => exact ⟨[], rfl⟩

theorem Sent.told (sent : Sent a.object a.name w move c u) : u.told = w.told := by
  cases sent <;> rfl

/-- Sending a change adds no change by itself. -/
theorem Sent.changes (sent : Sent a.object a.name w move c u) : u.changes a = w.changes a := by
  cases sent with
  | create | update => exact changes_modifyDeclared (w.hold _) a.object _ a
  | event => rfl
  | delete => exact changes_modifyDeclared w a.object _ a

/-- Whoever attends to an attribute attends to what is sent. -/
theorem Sent.attended (sent : Sent a.object a.name w move c u)
    (known : w.declared? a.object = some d)
    (allowed : move.Allowed d a.name) (attended : w.Attended a x f) :
    (u.announce c).Attended a x f := by
  obtain ⟨hs, held⟩ := sent.held
  have before := frame_sustains.trans (sent.sustains known allowed) (frame_sustains.change u c)
  have announced : w.Sustains (u.announce c) :=
    frame_sustains.trans before (World.around_hold _ _).sustains
  refine attended.upkeep announced ?_ (fun r => ?_) fun _ => ?_
  · show Handle.watcher x ∈ _ ++ u.held
    rw [held]
    exact List.mem_append_right _ (List.mem_append_right _ attended.held)
  · show ((u.registry r).observers a.name).count _ = _
    rw [registry, sent.registries]
    rfl
  · show (u.engine _).bindings.get? a.name = _
    rw [engine, sent.engines]
    rfl

end Move

theorem World.Around.changes (around : w.Around w') (a : Dependency) :
    w'.changes a = w.changes a := by
  obtain ⟨_, _, _, rfl⟩ := around
  rfl

theorem World.Around.heard (around : w.Around w') (a : Dependency) (x : WatcherRef) :
    w'.heard a x = w.heard a x := by
  obtain ⟨_, _, _, rfl⟩ := around
  rfl

theorem changes_announce {c : Change} (u : World) (about : c.About a) :
    (u.announce c).changes a = u.changes a ++ [c] := by
  show (u.addObject (.change c)).1.changes a = _
  rw [changes_addObject]
  simp [Entity.change?, Option.filter, about]

/-! ### Hearing of it -/

/-- Somebody goes on attending to an attribute and has heard of one change so many times, and of the
changes that have been made meanwhile. If there are none of these, the value is what it was. -/
structure Heard (a : Dependency) (x : WatcherRef) (f : Option FunctionRef) (c : Change) (k : Nat)
    (w w' : World) : Prop where
  attended : w'.Attended a x f
  since : ∃ cs ds, w'.changes a = w.changes a ++ cs ∧ w'.heard a x = w.heard a x ++ ds ∧
    ds.length = cs.length + k ∧
      (cs = [] → ds = List.replicate k c ∧ w'.valueOf? a = w.valueOf? a)

namespace Heard
variable {c : Change} {k k' : Nat}

theorem trans (first : Heard a x f c k w u) (next : Heard a x f c k' u w') :
    Heard a x f c (k + k') w w' where
  attended := next.attended
  since := by
    obtain ⟨cs, ds, changes, heard, longer, alone⟩ := first.since
    obtain ⟨cs', ds', changes', heard', longer', alone'⟩ := next.since
    refine ⟨cs ++ cs', ds ++ ds', by rw [changes', changes, List.append_assoc],
      by rw [heard', heard, List.append_assoc], ?_, fun none => ?_⟩
    · rw [List.length_append, List.length_append, longer, longer']
      omega
    · obtain ⟨rfl, rfl⟩ := List.append_eq_nil_iff.1 none
      obtain ⟨rfl, stored⟩ := alone rfl
      obtain ⟨rfl, stored'⟩ := alone' rfl
      exact ⟨List.replicate_append_replicate, stored'.trans stored⟩

/-- Whoever attends hears of what is made known. -/
theorem of_upholds (upholds : Upholds a x f w w') (attended : w.Attended a x f) :
    Heard a x f c 0 w w' := by
  obtain ⟨later, cs, chronicle⟩ := upholds.attended attended
  refine ⟨later, cs, cs, chronicle.changes, chronicle.heard, rfl, fun none => ?_⟩
  subst none
  exact ⟨rfl, chronicle.replay.symm⟩

theorem of_tables (attended : w'.Attended a x f) (objects : w'.objects = w.objects)
    (told : w'.told = w.told) : Heard a x f c 0 w w' :=
  ⟨attended, [], [], by rw [changes_of_objects objects, List.append_nil],
    by rw [heard_of_told told, List.append_nil], rfl, fun _ => ⟨rfl, valueOf?_of_objects objects a⟩⟩

/-- Whoever is told of the change has heard of it once more. -/
theorem tell {i : ObjectId} (attended : w.Attended a x f) (known : w.change? i = some c)
    (about : c.About a) (y : Observer) :
    Heard a x f c (if y = .watcher x then 1 else 0) w (w.tell y i) := by
  refine ⟨{ attended with }, [], _, (List.append_nil _).symm, heard_tell w y i a x, ?_, fun _ => ?_⟩
  · split <;> simp [known, about, Option.filter]
  · split <;> simp [known, about, Option.filter, World.valueOf?, World.stored?, World.declared?,
      World.entity?, World.tell]

end Heard

/-- Observers are told of a change one after the other. The watcher hears of it whenever it is its
turn. -/
theorem Told.heard {i : ObjectId} {c : Change} {xs : List Observer}
    (H : Accord (·.Attended a x f) (Upholds a x f) self self) (told : Told self i xs w w')
    (known : w.change? i = some c) (about : c.About a) (attended : w.Attended a x f) :
    Heard a x f c (xs.count (.watcher x)) w w' := by
  induction told with
  | none w => exact .of_tables attended rfl rfl
  | @next y rest w w₁ w₂ first _ ih =>
    have hearing := Heard.tell attended known about y
    have reacts : Upholds a x f (w.tell y i) w₁ := (H.react i y _ hearing.attended).keeps _ _ first
    have reacted := Heard.of_upholds (c := c) reacts hearing.attended
    have count : (y :: rest).count (.watcher x) =
        (if y = .watcher x then 1 else 0) + 0 + rest.count (.watcher x) := by
      rw [List.count_cons, Nat.add_zero, Nat.add_comm]
      simp
    rw [count]
    exact (hearing.trans reacted).trans (ih (reacts.change? known) reacted.attended)

/-! ### Delivering it -/

/-- Whoever attends when a notification starts goes on attending. -/
theorem World.Attended.notifying (attended : w.Attended a x f) (r : RegistryRef) (i : ObjectId)
    (c : Change) : (w.notifying r i c).Attended a x f := by
  cases listed : (w.registry r).slots.get? c.name with
  | none => rwa [w.notifying_of_unheard i listed]
  | some xs =>
    let w₁ := w.modifyRegistry r (·.prune c.name (w.liveObservers xs).contains)
    have pruned : Upholds a x f w w₁ := upholds_border.prune w r c.name xs listed
    have logged : Upholds a x f w₁ (w₁.addEntry (.observersNotified c.name c.kind
        (w.liveObservers xs).length)) := upholds_border.quiet ⟨rfl, id, id, id, Nat.le_refl _⟩
    rw [w.notifying_of_listed i listed]
    exact ((upholds_border.trans pruned logged).attended attended).1.hold _

theorem Answered.leave {g : FunctionRef} {i : ObjectId} (answered : Answered self a g i w u)
    (around : u.Around w') : Answered self a g i w w' := by
  obtain ⟨engine, bound, wrote, settled, leave, ran⟩ := answered
  exact ⟨engine, bound, wrote, settled, leave.trans around, ran⟩

theorem Written.leave {i : ObjectId} (written : Written self a i w u) (around : u.Around w') :
    Written self a i w w' := by
  cases written with
  | nothing none leave => exact .nothing none (leave.trans around)
  | write engine wrote leave => exact .write engine wrote (leave.trans around)

theorem Delivered.leave {c : Change} (delivered : Delivered self a x f c w u)
    (around : u.Around w') : Delivered self a x f c w w' := by
  obtain ⟨observable, once, told, written, answered⟩ := delivered
  exact ⟨observable, once, told, written.leave around, fun g same => (answered g same).leave around⟩

/-- A write handler of `::` is called on a change, and runs the body if there is room for it. -/
theorem Answered.of_write {e : EngineRef} {key : ScopeKey} {g : FunctionRef} {i : ObjectId}
    {r : Except BindError Unit} (engine : w.engineOf? a.object = some e)
    (bound : (w.engine e).bindings.get? a.name = some (Operator.notify.bind g key))
    (free : a.name ∉ (w.engine e).guards)
    (run : Engine.write self e a.object a.name i (w.hold [.engine e]) = some (r, w')) :
    Answered self a g i w w' := by
  obtain ⟨r', w₁, w₂, wrote, settled, leave⟩ :=
    exists_of_write (w := w.hold [.engine e]) free bound rfl run
  exact .once engine bound wrote settled leave fun room =>
    exists_of_standardWrite rfl (by exact room) wrote

namespace Written
variable {i : ObjectId} (written : Written self a i w w') (attended : w.Attended a x f)
include written attended

/-- What is written back runs the function that is bound by `::`. -/
theorem answered {g : FunctionRef} (same : f = some g) : Answered self a g i w w' := by
  obtain ⟨e, key, engine, bound, free⟩ := attended.bound g same
  cases written with
  | nothing none => simp [engine] at none
  | write engine' wrote leave =>
    rw [engine] at engine'
    cases engine'
    exact (Answered.of_write engine bound free wrote).leave leave

theorem heard (H : Accord (·.Attended a x f) (Upholds a x f) self self) (c : Change) :
    ∃ v, Heard a x f c 0 w v ∧ v.Around w' := by
  cases written with
  | nothing none leave => exact ⟨w, .of_tables attended rfl rfl, leave⟩
  | @write e _ u _ wrote leave =>
    have held := attended.hold [.engine e]
    have writes := (H.writeBinding e a.object a.name i _ held).keeps _ _ wrote
    have enters : Heard a x f c 0 w (w.hold [.engine e]) := .of_tables held rfl rfl
    exact ⟨u, enters.trans (.of_upholds writes held), leave⟩

end Written

/-- A watcher that attends to an attribute is told of its changes once. -/
theorem World.Attended.count_live (attended : w.Attended a x f) :
    (w.liveObservers (w.observersOf a)).count (.watcher x) = 1 := by
  obtain ⟨r, observable, once⟩ := attended.subscribed
  have live : w.isLive (Observer.watcher x).handle = true :=
    isLive_watcher.2 (List.mem_append_right _ attended.held)
  rw [observersOf, observable]
  exact (List.count_filter (p := fun y : Observer => w.isLive y.handle) live).trans once

/-- A change that is dispatched is delivered to whoever attends to the attribute, who hears of it
once. -/
theorem delivered_of_dispatch {c : Change} {reg : RegistryRef} {r : Except BindError Unit}
    (H : Accord (·.Attended a x f) (Upholds a x f) self self)
    (about : c.About a) (observable : u.registryOf? a.object = some reg)
    (attended : (u.announce c).Attended a x f)
    (run : dispatch self a.object c.kind a.name c.old c.new u = some (r, w')) :
    Delivered self a x f c u w' ∧ ∃ v, Heard a x f c 1 (u.announce c) v ∧ v.Around w' := by
  have made : (⟨c.kind, a.object, a.name, c.old, c.new⟩ : Change) = c := by
    rw [← about.1, ← about.2]
  obtain ⟨k, told, ended, rest⟩ := exists_of_dispatch observable run
  rw [made] at ended
  have known := u.change?_announce c
  obtain ⟨_, last, telling, rfl⟩ := exists_of_notify known ended
  have same : (u.announce c).observersOf a = u.observersOf a := by
    rw [observersOf, observersOf, observable, (u.persists_announce c).registryOf? observable]
    rfl
  have listed : ((u.announce c).registry reg).observers c.name = u.observersOf a := by
    rw [observersOf, observable, about.2]
    rfl
  have once := attended.count_live
  rw [same] at once
  rw [listed] at telling
  have begun := attended.notifying reg ⟨u.objects.size⟩ c
  have starts : Heard a x f c 0 (u.announce c) _ := .of_tables begun (by simp) (by simp)
  have there : ((u.announce c).notifying reg ⟨u.objects.size⟩ c).change? ⟨u.objects.size⟩ =
      some c := by
    simpa [World.change?, World.entity?] using known
  have hears := starts.trans (telling.heard H there about begun)
  rw [once] at hears
  have later : {last with held := (u.announce c).held}.Attended a x f :=
    { hears.attended with held := attended.held }
  have written : Written self a ⟨u.objects.size⟩ {last with held := (u.announce c).held} w' := by
    split at rest
    · next none => exact .nothing none rest.2
    · next e engine =>
      obtain ⟨_, wrote, leave⟩ := rest
      exact .write engine wrote leave
  obtain ⟨v, writes, leave⟩ := written.heard later H c
  exact ⟨⟨observable, once, telling, written, fun _ same => written.answered later same⟩,
    v, (hears.trans (.of_tables later rfl rfl)).trans writes, leave⟩

/-- **A move on the attribute delivers one change or none**, if no other one comes meanwhile. -/
theorem upholds_move {move : Move}
    (answers : ∀ (β : Type) (q : Request β), (performCalm a n β q).Keeps (Upholds a x f))
    (alone : ∀ {r w'}, move.run (performCalm a n) a.object a.name w = some (r, w') →
      (w'.changes a).length ≤ (w.changes a).length + 1) (attended : w.Attended a x f) :
    (move.run (performCalm a n) a.object a.name).KeepsAt (Upholds a x f) w := by
  intro r w' run
  have sustains : w.Sustains w' :=
    ((calming frame_sustains a n).move (frame_sustains.touches _ _) move).keeps _ _ _ run
  have kept := ((calming frame_kept a n).move (frame_kept.touches _ _) move).keeps _ _ _ run
  obtain ⟨d, known, has⟩ := attended.known
  refine ⟨sustains, fun _ => ?_⟩
  rcases Move.exists_of_run known run with ⟨_, rfl⟩ | ⟨c, u, u', allowed, sends, dispatched, leave⟩
  · exact ⟨attended, [], .still rfl rfl rfl⟩
  have sent := Move.sent_of_sends sends
  have announced := sent.attended known allowed attended
  obtain ⟨reg, observable, _⟩ := attended.subscribed
  obtain ⟨delivered, v, hears, around⟩ := delivered_of_dispatch (upholds_accord answers) sent.about
    (sent.persists.registryOf? observable) announced dispatched
  replace around := around.trans leave
  obtain ⟨cs, ds, changes, heard, _, only⟩ := hears.since
  rw [← around.changes, changes_announce u sent.about, sent.changes] at changes
  -- nothing else was made known, so the change is what it all comes to
  have none : cs = [] := by
    have room := alone run
    rw [changes, List.length_append, List.length_append, List.length_singleton] at room
    exact List.eq_nil_of_length_eq_zero (by omega)
  obtain ⟨rfl, stored⟩ := only none
  subst none
  rw [← around.valueOf?, u.valueOf?_announce] at stored
  rw [← around.heard] at heard
  have there : w'.Attended a x f := by
    have held : .watcher x ∈ w'.held := by
      rw [kept.progress.1]
      exact attended.held
    obtain ⟨_, _, _, rfl⟩ := around
    exact { hears.attended with held := held }
  refine ⟨there, [c], .change sends (delivered.leave leave) (by rw [changes, List.append_nil]) ?_
    (stored.trans (sent.stored attended.known))⟩
  exact heard.trans (congrArg (· ++ [c]) (heard_of_told sent.told a x))

/-! ### Whole runs -/

/-- What is arranged concerns other attributes, or other observers. -/
theorem uneventful_of_arranges {α : Type} {q : Request α} {r : Except BindError α}
    (arranges : q.Arranges) (made : x.index < w.watchers.size)
    (run : respond self α q w = some (r, w')) :
    w'.held = w.held ∧ w'.heard a x = w.heard a x ∧ w'.valueOf? a = w.valueOf? a ∧
      ∀ s, .watcher x ∈ w.held → w'.listings s a.name x = w.listings s a.name x := by
  cases q with
  | newChange c =>
    cases run
    exact ⟨rfl, rfl, (w.slight_addChange (n := 0) c).valueOf? a, fun _ _ => rfl⟩
  | bind o name op g key =>
    have same := Uneventful.bindAttribute (a := a) (x := x) o name op g key w r w' run
    exact ⟨same.held, same.heard, same.stored, fun s held => same.listed held s⟩
  | addBinding e name op g key =>
    cases run
    exact ⟨rfl, rfl, rfl, fun _ _ => rfl⟩
  | subscribe s name code =>
    cases run
    have other : Observer.watcher ⟨w.watchers.size⟩ ≠ .watcher x := by
      intro same
      cases same
      exact absurd made (Nat.lt_irrefl _)
    have same := Uneventful.observe (a := a) (w := (w.addWatcher ⟨code⟩).1) other s name
    exact ⟨rfl, rfl, rfl, fun s' held => same.listed held s'⟩
  | _ => cases arranges

/-- Whatever is asked for while the changes of an attribute come one at a time, there is a chronicle
of them. -/
theorem upholds_calm {α : Type} (q : Request α) : (performCalm a n α q).Keeps (Upholds a x f) := by
  induction n generalizing α with
  | zero =>
    intro w r w' run
    cases run
  | succ n ih =>
    intro w r w' run
    have sustains := (frame_sustains.checked _ (n + 1) q w r w' run).2
    refine ⟨sustains, fun attended => ?_⟩
    obtain ⟨m, same, calm, answer⟩ := exists_of_calm run
    cases same
    have H : Accord (·.Attended a x f) (Upholds a x f) (performCalm a n) (performCalm a n) :=
      upholds_accord fun _ q => ih q
    refine ((H.respond_at q attended (fun {o name move v} there makes => ?_)
      (fun {i v u} c y delivers known objects since => ?_) fun arranges => Action.KeepsAt.refines
        ?_).keeps _ _ answer).attended attended
    · by_cases same : (⟨o, name⟩ : Dependency) = a
      · subst same
        exact (upholds_move (fun _ q => ih q) (calm.alone makes) there).refines
      · exact H.move (upholds_touches same) move v there
    · refine (frame_sustains.tell u y i).upholds
        (.tell y (since.change? ?_) (calm.fresh delivers known)) fun _ => rfl
      rwa [World.change?, World.entity?, objects]
    · intro r w' answer
      obtain ⟨changes, bindings⟩ := calm.spares arranges answer
      obtain ⟨held, heard, stored, listed⟩ :=
        uneventful_of_arranges (a := a) arranges attended.made answer
      have sustains := ((calming frame_sustains a n).respond frame_sustains q).keeps _ _ _ answer
      refine ⟨sustains, fun attended => ⟨?_, [], .still changes heard stored⟩⟩
      exact attended.upkeep sustains (held ▸ attended.held) (listed · attended.held) bindings

/-- There is a chronicle of every run in which the changes of an attribute come one at a time. -/
theorem CalmRun.chronicle (run : CalmRun a w w') (attended : w.Attended a x f) :
    w'.Attended a x f ∧ ∃ cs, Chronicle a x f w cs w' := by
  induction run with
  | start => exact ⟨attended, [], .still rfl rfl rfl⟩
  | @request α n q r v w' _ answer ih =>
    obtain ⟨there, cs, chronicle⟩ := ih
    obtain ⟨later, cs', next⟩ := (upholds_calm q v r w' answer).attended there
    exact ⟨later, cs ++ cs', .append chronicle next⟩

/-! ### Who makes nothing known -/

/-- An update has assigned what it has read. -/
theorem exists_of_update {e : EngineRef} {o : ObjectId} {name : String} {r : Except BindError Unit}
    (run : Engine.update self e o name w = some (r, w')) :
    ∃ r₁ w₁, Engine.read self e o name (w.hold [.engine e, .object o]) = some (r₁, w₁) ∧
      (((∀ y, r₁ ≠ .ok (some y)) ∧ w₁.Around w') ∨
        ∃ y r₂ w₂, r₁ = .ok (some y) ∧
          self Unit (.setAttr (.object o) name y)
            ((w₁.addEntry (.bindingUpdated o name (w₁.text y))).guard e name) = some (r₂, w₂) ∧
          ((w₁.addEntry (.bindingUpdated o name (w₁.text y))).unguard w₂ e name).Around w') := by
  obtain ⟨last, inner, rfl⟩ := Action.exists_of_holding run
  rcases Action.exists_of_bind inner with ⟨c, failed, _⟩ | ⟨v, w₁, found, rest⟩
  · exact ⟨_, last, failed, .inl ⟨by simp, _, _, _, rfl⟩⟩
  · cases v with
    | none =>
      cases rest
      exact ⟨_, _, found, .inl ⟨by simp, _, _, _, rfl⟩⟩
    | some y =>
      dsimp only at rest
      rw [Action.read_bind, Action.log_bind] at rest
      obtain ⟨w₂, assigned, rfl⟩ := exists_of_guarding rest
      exact ⟨_, w₁, found, .inr ⟨y, r, w₂, rfl, assigned, _, _, _, rfl⟩⟩

namespace diary

/-- An attribute without a value, to which a function is bound by `::`, and which is watched. -/
def session : Program Unit := do
  let o ← .request (.newObject
    { typeName := "Item", parent := none, attributes := .empty, members := ["x"]
      constants := .empty, storage := .empty, config := none })
  .request (.keep "item" (.object o))
  let f ← .request (.newFunction "x" ⟨.empty, .empty⟩ fun _ _ => return .null)
  .request (.bind o "x" .notify f (.given 0))
  let _ ← Program.request (.subscribe ⟨0⟩ "x" fun _ => return ())

def start : World :=
  { (session.run (perform 12) (.initial #[])).elim (.initial #[]) Prod.snd with
    held := [.watcher ⟨0⟩] }

def entry : Dependency := ⟨⟨0⟩, "x"⟩

/-- The request that makes a move on the attribute. -/
def request : Move → Request Unit
  | .assign v => .setAttr (.object ⟨0⟩) "x" v
  | .emit v => .emit ⟨0⟩ "x" v
  | .clear => .clear ⟨0⟩ "x"

/-- The world after a move has been made. -/
def next (w : World) (move : Move) : World := (perform 1 Unit (request move) w).elim w Prod.snd

/-- The move is made, and makes one change at most. -/
def ends (w : World) (move : Move) : Bool :=
  (perform 1 Unit (request move) w).any fun y =>
    decide ((y.2.changes entry).length ≤ (w.changes entry).length + 1)

theorem empty_start : (start.declared? ⟨0⟩).any (·.hasAttribute "x") = true ∧
    start.registryOf? ⟨0⟩ = some ⟨0⟩ ∧ start.listings ⟨0⟩ "x" ⟨0⟩ = 1 ∧
    start.watchers.size = 1 ∧ start.engineOf? ⟨0⟩ = some ⟨0⟩ ∧
    (start.engine ⟨0⟩).bindings.get? "x" = some (Operator.notify.bind ⟨0⟩ (.given 0)) ∧
    (start.engine ⟨0⟩).guards = [] ∧ start.changes entry = [] ∧ start.told = #[] ∧
    (start.valueOf? entry).isNone = true := by
  decide +kernel

theorem attended : start.Attended entry ⟨0⟩ (some ⟨0⟩) := by
  obtain ⟨there, registry, listed, watchers, engine, bound, free, _⟩ := empty_start
  obtain ⟨known, has⟩ := (Option.any_eq_true_iff_get ..).1 there
  exact {
    known := ⟨_, (Option.some_get known).symm, has⟩
    subscribed := ⟨⟨0⟩, registry, listed⟩
    made := by rw [watchers]; exact Nat.zero_lt_one
    held := List.mem_singleton_self _
    bound := fun g same => by
      cases same
      refine ⟨⟨0⟩, .given 0, engine, bound, ?_⟩
      rw [free]
      exact List.not_mem_nil }

/-- The worlds after 1 has been assigned, 7 has been emitted, and the attribute has been cleared. -/
def created : World := next start (.assign (.int 1))

def emitted : World := next created (.emit (.int 7))

def cleared : World := next emitted .clear

end diary

end LiveBinding
