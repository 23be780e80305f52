import LiveBinding.Proofs.Records

/-! When writes are suppressed.

The guard of an attribute is up while an update assigns the attribute. So it is up for the change
of the update itself, and for whatever else changes the attribute before that assignment has
been delivered. Whether that is the case can be told from the requests that are being
answered: the guards that are up are those of the updates among them. -/
namespace LiveBinding
variable {α β : Type} {self : Performer} {w v v' : World}

/-! ### What is asked -/

/-- The assignment with which an update ends, begun under the guards of a world: of the value
that it has just read, with its own guard put up. -/
inductive EndsUpdate (self : Performer) (w : World) (e : EngineRef) (name : String) :
    {β : Type} → Request β → World → Prop where
  | assigns {o : ObjectId} {x : Value} {u v : World} (before : w.SameGuards u)
      (reads : Engine.read self e o name u = some (.ok (some x), v)) :
      EndsUpdate self w e name (.setAttr (.object o) name x)
        ((v.addEntry (.bindingUpdated o name (v.text x))).guard e name)

/-- To answer one request, a performer is asked another in some world: the answer would be
different if that one were answered differently. -/
def Asks (self : Performer) (q : Request α) (w : World) (q' : Request β) (v : World) : Prop :=
  ∃ other : Performer,
    (∀ γ (p : Request γ) u, other γ p u ≠ self γ p u →
      (⟨γ, p⟩ : (γ : Type) × Request γ) = ⟨β, q'⟩ ∧ u = v) ∧
    respond other α q w ≠ respond self α q w

/-- Performers that differ in one answer give the same answers in worlds of a kind that it is not
given in. -/
theorem sameAnswers_of_apart {A : World → Prop} {R : World → World → Prop} {performer : Performer}
    {q : Request β} (F : Frame R) (answers : ∀ γ (p : Request γ), (self γ p).Keeps R)
    (only : ∀ γ (p : Request γ) u, performer γ p u ≠ self γ p u →
      (⟨γ, p⟩ : (γ : Type) × Request γ) = ⟨β, q⟩ ∧ u = v)
    (kept : ∀ {w w' : World}, A w → R w w' → A w') (hold : ∀ {w : World} hs, A w → A (w.hold hs))
    (apart : ¬ A v) : SameAnswers A R self performer where
  border := F.toBorder
  kept := kept
  hold := hold
  same p u here := by
    by_contra differs
    obtain ⟨_, rfl⟩ := only _ p u (Ne.symm differs)
    exact apart here
  keeps p u _ := answers _ p u

/-- A request is answered under the guards of the world it is asked in, except for the assignment
at the end of an update. -/
theorem sameGuards_of_asks {q : Request α} {q' : Request β}
    (answers : ∀ γ (p : Request γ), (self γ p).Keeps World.Persists) (asks : Asks self q w q' v)
    (other : ∀ e name, ¬ EndsUpdate self w e name q' v) : w.SameGuards v := by
  obtain ⟨performer, only, differs⟩ := asks
  by_contra changed
  -- the performer differs in one answer that nobody asks for
  have answers' : SameAnswers w.SameGuards World.Persists self performer :=
    sameAnswers_of_apart World.frame_persists answers only
      (fun same persists => World.steady_guards.trans same persists.guards) (fun _ same => same)
      changed
  have calling {one two : Performer} (H : SameAnswers w.SameGuards World.Persists one two) :
      Calling w.SameGuards World.Persists one two := H.answering.calling fun same => same
  have assigns {e o name x} {u u' : World} (before : w.SameGuards u)
      (reads : Engine.read self e o name u = some (.ok (some x), u')) :
      self Unit (.setAttr (.object o) name x)
          ((u'.addEntry (.bindingUpdated o name (u'.text x))).guard e name) =
        performer Unit (.setAttr (.object o) name x)
          ((u'.addEntry (.bindingUpdated o name (u'.text x))).guard e name) := by
    by_contra apart
    obtain ⟨same, here⟩ := only _ _ _ (Ne.symm apart)
    obtain ⟨rfl, same⟩ := Sigma.mk.inj same
    cases eq_of_heq same
    subst here
    exact other e name (.assigns before reads)
  have accord := answers'.answering.accord (calling answers') (fun _ same => same)
    fun before reads => .within World.frame_persists.guarded
      (.of_eq (assigns before reads) (answers _ _ _))
  have accord' := answers'.symm.answering.accord (calling answers'.symm) (fun _ same => same)
    fun {e o name x u u'} before reads => by
      have same := assigns before
        ((calling answers'.symm).readBinding_at e o name before _ _ reads).1
      exact .within World.frame_persists.guarded
        (.of_eq same.symm (.congr same.symm (answers _ _ _)))
  exact differs (Action.RefinesAt.antisymm (accord'.respond World.frame_persists q w fun _ => rfl)
    (accord.respond World.frame_persists q w fun _ => rfl))

/-- What is asked while a request of the host is answered, and what is asked to answer that, and so
on. The list says which updates are at their assignments meanwhile: the engine and the name of
each. -/
inductive Asked : List (EngineRef × String) → Nat → {α : Type} → Request α → World → Prop where
  | host {α : Type} {n : Nat} {q : Request α} {w : World} (reached : Reachable w) : Asked [] n q w
  | inner {α β : Type} {updates : List (EngineRef × String)} {n : Nat} {q : Request α} {w : World}
      {q' : Request β} {v : World} (outer : Asked updates (n + 1) q w)
      (asks : Asks (perform n) q w q' v)
      (other : ∀ e name, ¬ EndsUpdate (perform n) w e name q' v) : Asked updates n q' v
  | update {α β : Type} {updates : List (EngineRef × String)} {n : Nat} {q : Request α} {w : World}
      {q' : Request β} {v : World} {e : EngineRef} {name : String}
      (outer : Asked updates (n + 1) q w) (asks : Asks (perform n) q w q' v)
      (ends : EndsUpdate (perform n) w e name q' v) : Asked ((e, name) :: updates) n q' v

/-- The guards that are up are those of the updates that are assigning. -/
theorem mem_guards_of_asked {updates : List (EngineRef × String)} {n : Nat} {q : Request α}
    (asked : Asked updates n q w) (e : EngineRef) (name : String) :
    name ∈ (w.engine e).guards ↔ (e, name) ∈ updates := by
  induction asked with
  | host reached => simp [World.guards_of_reachable reached]
  | inner outer asks other ih =>
    rw [sameGuards_of_asks (fun _ => World.frame_persists.perform _) asks other e, ih]
  | @update _ _ updates n q w q' v e' a outer asks ends ih =>
    cases ends with
    | @assigns o x u v before reads =>
      have reading : u.Persists v := ((World.performing n).readBinding _ _ _).keeps _ _ _ reads
      have same := World.steady_guards.trans before reading.guards
      have bound : (v.engine e').bindings.contains a = true :=
        reading.bound _ _ (contains_of_read reads)
      rw [World.mem_guards_guard (w := v.addEntry _) bound, List.mem_cons, Prod.mk.injEq, ← ih]
      exact or_congr_right (by rw [← same e]; rfl)

/-! ### What changes an attribute -/

theorem Moves.sameGuards {n : Nat} {o : ObjectId} {name : String} {q : Request α} {move : Move}
    (moves : Moves (perform n) o name q w move v) : w.SameGuards v := by
  cases moves with
  | setAttr | emit | clear | setName | invertName => exact fun _ => rfl
  | invertAttr resolved => exact (((World.performing n).resolve _ _).keeps _ _ _ resolved).guards
  | invertCall called => exact (((World.performing n).getName _ _).keeps _ _ _ called).guards

theorem Makes.sameGuards {n : Nat} {o : ObjectId} {name : String} {q : Request α} {move : Move}
    (makes : Makes (perform n) o name q w move v) : w.SameGuards v := by
  cases makes with
  | moves _ moves => exact moves.sameGuards
  | invertName => exact fun _ => rfl

/-! ### What is written -/

/-- **A write is suppressed exactly while an update assigns the attribute.** Take any request that
is asked, however deep in the answer to a request of a host, and that changes an attribute of an
object with an engine. It changes nothing, if it is refused or has nothing to say. Otherwise the
observers are told of its change first. Then, if an update of that attribute is at its
assignment, nothing else happens but an entry in the log; this is so for the change that the
update makes and for every other one made meanwhile. If none is, the write handler that the
attribute has by then is run once, on that change. -/
theorem write_suppressed_iff_assigning {updates : List (EngineRef × String)} {n : Nat}
    {q : Request α} {o : ObjectId} {d : Declared} {e : EngineRef} {name : String} {move : Move}
    {r : Except BindError Unit} (asked : Asked updates (n + 1) q w)
    (makes : Makes (perform n) o name q w move v) (known : v.declared? o = some d)
    (engine : d.engine = some e) (run : move.run (perform n) o name v = some (r, v')) :
    ((move.Allowed d name → move.sends o name v = none) ∧ v' = v) ∨
      ∃ c u k told, move.Allowed d name ∧ move.sends o name v = some (c, u) ∧
        notify (perform n) d.registry ⟨u.objects.size⟩ (u.announce c) = some (.ok k, told) ∧
        ((e, name) ∈ updates → r = .ok () ∧ (told.addEntry (.writeSuppressed o name)).Around v') ∧
        ((e, name) ∉ updates → WritesBack (perform n) e o name ⟨u.objects.size⟩ told r v') := by
  rcases Move.exists_of_run known run with nothing | ⟨c, u, u', allowed, sends, sent, leave⟩
  · exact .inl nothing
  right
  have sending := Move.sent_of_sends sends
  have before := sending.persists
  obtain ⟨rfl, rfl⟩ := sending.about
  have observable : u.registryOf? c.owner = some d.registry :=
    before.registryOf? (by rw [World.registryOf?, known]; rfl)
  have own : u.engineOf? c.owner = some e := before.engineOf? (by
    rw [World.engineOf?, known]
    exact engine)
  obtain ⟨k, told, ended, rest⟩ := exists_of_dispatch observable sent
  have telling := World.Persists.of_notify ended
  have announced := u.persists_announce c
  rw [(announced.trans telling).engineOf? own] at rest
  obtain ⟨w₂, wrote, done⟩ := rest
  -- nothing puts a guard up or takes one down between the request and the write
  have guards : ∀ a, a ∈ (told.engine e).guards ↔ (e, a) ∈ updates := fun a => by
    rw [telling.guards, announced.guards, before.guards, makes.sameGuards,
      mem_guards_of_asked asked]
  refine ⟨c, u, k, told, allowed, sends, ended, fun assigning => ?_, fun idle => ?_⟩
  · obtain ⟨ok, same⟩ :=
      exists_of_guarded (w := told.hold [.engine e]) ((guards c.name).2 assigning) wrote
    subst same
    exact ⟨ok, World.Around.trans ⟨_, _, _, rfl⟩ (done.trans leave)⟩
  · exact writesBack_of_free (fun up => idle ((guards c.name).1 up)) wrote (done.trans leave)

namespace clampedEcho

/-- Reads an attribute through the name of its object and assigns it likewise. -/
def code (s : Scope) : Arguments → Program Value
  | .traced t => do
    let v ← .request (.getName s "target")
    .request (.loadAttr t v "x")
  | .inverted s' v => do
    .request (.invert s' (.attr ⟨"target", []⟩ "x") v)
    return .null
  | .none => return .null

/-- `b` of one object and `x` of another follow each other, and an observer assigns 5 to `b`. -/
def session : Program Unit := do
  let item : Blueprint :=
    { typeName := "Item", parent := none, attributes := .ofList [("x", .int 0)], members := []
      constants := .empty, storage := .empty, config := none }
  let t ← .request (.newObject item)
  .request (.keep "target" (.object t))
  let o ← .request (.newObject {item with attributes := .empty})
  .request (.keep "item" (.object o))
  let f ← .request (.newFunction "b" ⟨.ofList [("target", .object t)], .empty⟩ code)
  .request (.bind o "b" .delegate f (.given 0))
  .request (.populate o)
  let s ← .request (.subscribe ⟨1⟩ "b" fun _ => .request (.setAttr (.object o) "b" (.int 5)))
  .request (.keep "clamp" (.subscription s))

def start : World := (session.run (perform 12) (.initial #[])).elim (.initial #[]) Prod.snd

theorem reachable : Reachable start := (Reachable.start #[]).final 12 session

/-- What is logged in a later world that was not in an earlier one. -/
def loggedSince (w w' : World) : List String := (w'.log.toList.drop w.log.size).map LogEntry.message

/-- The world after 7 has been assigned to `b` itself. -/
def assigned : World := (assign (perform 11) ⟨1⟩ "b" (.int 7) start).elim start Prod.snd

/-- What that makes known, and the world that it is about by then. -/
def seven : Change := ⟨.update, ⟨1⟩, "b", .int 0, .int 7⟩

def stored : World := (start.hold [.object ⟨1⟩]).store ⟨⟨1⟩, "b"⟩ (.int 7)

/-- The world after the observer has heard of it. -/
def told : World := (notify (perform 11) ⟨1⟩ ⟨3⟩ (stored.announce seven)).elim start Prod.snd

theorem assigned_ok : ((assign (perform 11) ⟨1⟩ "b" (.int 7) start).any fun x => x.1.isOk) = true ∧
    (start.declared? ⟨1⟩).any (fun d => decide (d.engine = some ⟨0⟩ ∧ d.registry = ⟨1⟩ ∧
      d.hasAttribute "b" = true ∧ d.isConstant "b" = false)) = true ∧
    start.stored? ⟨1⟩ "b" = some (.int 0) ∧ start.equal (.int 0) (.int 7) = false ∧
    start.objects.size = 3 := by
  decide +kernel

theorem told_five : told.stored? ⟨1⟩ "b" = some (.int 5) ∧
    (told.engine ⟨0⟩).bindings.get? "b" = some (Operator.delegate.bind ⟨0⟩ (.given 0)) := by
  decide +kernel

/-- Outside of updates an assignment is written back, after the observer has assigned something
else. -/
theorem writes_back :
    (∃ k, notify (perform 11) ⟨1⟩ ⟨3⟩ (stored.announce seven) = some (.ok k, told)) ∧
    told.stored? ⟨1⟩ "b" = some (.int 5) ∧ ∃ r w₁ w₂,
      (⟨.invertedWrite, ⟨0⟩, .given 0⟩ : Handler).write (perform 11) ⟨1⟩ "b" ⟨3⟩
        (told.engaged ⟨0⟩) = some (r, w₁) ∧
      Engine.settle (told.engine ⟨0⟩).config.policy () ⟨1⟩ "b" r w₁ = some (.ok (), w₂) ∧
      w₂.Around assigned := by
  obtain ⟨succeeds, declared, old, differs, size⟩ := assigned_ok
  obtain ⟨five, bound⟩ := told_five
  obtain ⟨d, known, facts⟩ := (Option.any_eq_true _ _).1 declared
  obtain ⟨engine, registry, has, free⟩ := of_decide_eq_true facts
  have run : (Move.assign (.int 7)).run (perform 11) ⟨1⟩ "b" start = some (.ok (), assigned) :=
    Action.eq_some_of_isOk succeeds
  have sends : (Move.assign (.int 7)).sends ⟨1⟩ "b" start = some (seven, stored) := by
    simp only [Move.sends, old, differs, Bool.false_eq_true, if_false]
    rfl
  have makes : Makes (perform 11) ⟨1⟩ "b" (.setAttr (.object ⟨1⟩) "b" (.int 7)) start
      (.assign (.int 7)) start := .moves id .setAttr
  rcases write_suppressed_iff_assigning (.host reachable) makes known engine run with
    ⟨nothing, _⟩ | ⟨c, u, k, told', _, sends', ended, _, wrote⟩
  · rw [nothing ⟨has, fun constant => absurd constant (by simp [free])⟩] at sends
    cases sends
  · cases sends.symm.trans sends'
    have here : (⟨stored.objects.size⟩ : ObjectId) = ⟨3⟩ := by
      rw [← size]
      exact congrArg ObjectId.mk Array.size_modify
    rw [registry, here] at ended
    rw [here] at wrote
    have same : told = told' := by rw [told, ended, Option.elim_some]
    subst same
    have back := wrote List.not_mem_nil
    rw [WritesBack, bound] at back
    exact ⟨⟨k, ended⟩, five, back⟩

/-- The world after 10 has been assigned to `x`. -/
def followed : World :=
  (perform 12 Unit (.setAttr (.object ⟨0⟩) "x" (.int 10)) start).elim start Prod.snd

/-- There is one update, and two writes are suppressed: its own, and that of the observer. So `x`
does not get what the observer has assigned. -/
theorem suppresses_observer :
    (perform 12 Unit (.setAttr (.object ⟨0⟩) "x" (.int 10)) start).any (·.1.isOk) = true ∧
    (loggedSince start followed).count "binding updated" = 1 ∧
    (loggedSince start followed).count "write suppressed during update" = 2 ∧
    followed.stored? ⟨1⟩ "b" = some (.int 5) ∧ followed.stored? ⟨0⟩ "x" = some (.int 10) := by
  decide +kernel

end clampedEcho

end LiveBinding
