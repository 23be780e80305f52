import LiveBinding.Proofs.Endings
import LiveBinding.Proofs.Standing

/-! Failures that stay in the log.

An engine may be told to log the failures of its handlers and to go on. Then no failure of a
body, of what the body calls, or of other engines, gets past it: an evaluation that fails gives
no value, and nothing is assigned or linked. Reading, populating, assigning, emitting and
clearing succeed on its object, whatever the bodies do, as long as what they run ends. -/
namespace LiveBinding
variable {self : Performer} {w w' v : World} {e : EngineRef} {o : ObjectId} {name : String}
  {change : ObjectId} {cause : BindError}

/-! ### Handlers that fail -/

theorem Action.holding_of_eq {α : Type} {hs : List Handle} {a : Action α} {r : Except BindError α}
    (run : a (w.hold hs) = some (r, w')) : holding hs a w = some (r, {w' with held := w.held}) := by
  unfold World.hold at run
  rw [holding, within_apply, run]

theorem settle_ok {α : Type} {default : α} {r r' : Except BindError α}
    (run : Engine.settle .logAndContinue default o name r w = some (r', w')) : ∃ a, r' = .ok a := by
  cases r <;> cases run <;> exact ⟨_, rfl⟩

/-- An evaluation does nothing after its handler has failed. -/
theorem evaluate_of_failed {h : Handler} (fails : h.value self o name w = some (.error cause, v)) :
    Engine.evaluate self e o name h w = some (.error cause, v) := by
  unfold Handler.value at fails
  unfold Engine.evaluate
  split at fails
  · next traced =>
    rw [if_pos traced]
    rcases Action.exists_of_bind fails with ⟨_, failed, same⟩ | ⟨_, _, _, rest⟩
    · cases same
      rw [Action.bind_apply, failed]
    · cases rest
  · next standard => rw [if_neg standard, Action.bind_apply, fails]

section
variable (policy : (w.engine e).config.policy = .logAndContinue)
include policy

/-- A read whose handler fails gives no value, and leaves one entry in the log. -/
theorem read_of_failed {h : Handler}
    (bound : ((w.engine e).bindings.get? name).bind Binding.read = some h)
    (fails : h.value self o name {w with limit := some (w.engine e).config.maxDepth} =
      some (.error cause, v)) :
    Engine.read self e o name w =
      some (.ok none, {v.addEntry (.evaluationFailed o name cause) with limit := w.limit}) := by
  unfold Engine.read Action.underLimit
  rw [Action.read_bind, bound]
  dsimp only
  rw [Action.within_apply, Action.bind_apply, Action.attempt_apply, evaluate_of_failed fails,
    policy]
  rfl

/-- An update whose handler fails assigns nothing. -/
theorem update_of_failed {h : Handler}
    (bound : ((w.engine e).bindings.get? name).bind Binding.read = some h)
    (fails : h.value self o name {w.hold [.engine e, .object o] with
      limit := some (w.engine e).config.maxDepth} = some (.error cause, v)) :
    Engine.update self e o name w = some (.ok (),
      {v.addEntry (.evaluationFailed o name cause) with limit := w.limit, held := w.held}) := by
  have reads : Engine.read self e o name (w.hold [.engine e, .object o]) = some (.ok none,
      {v.addEntry (.evaluationFailed o name cause) with limit := w.limit}) :=
    read_of_failed (w := w.hold _) policy bound fails
  have inner {k : Option Value → Action Unit} (ends : ∀ w, k none w = some (.ok (), w)) :
      (Engine.read self e o name >>= k) (w.hold [.engine e, .object o]) = some (.ok (),
        {v.addEntry (.evaluationFailed o name cause) with limit := w.limit}) := by
    rw [Action.bind_apply, reads]
    exact ends _
  exact Action.holding_of_eq (inner fun _ => rfl)

/-- A write whose handler fails leaves one entry in the log. -/
theorem write_of_failed {h : Handler} (free : name ∉ (w.engine e).guards)
    (bound : ((w.engine e).bindings.get? name).bind Binding.write = some h)
    (fails : h.write self o name change {w with limit := some (w.engine e).config.maxDepth} =
      some (.error cause, v)) :
    Engine.write self e o name change w =
      some (.ok (), {v.addEntry (.evaluationFailed o name cause) with limit := w.limit}) := by
  unfold Engine.write Action.underLimit
  rw [Action.read_bind, if_neg (by simpa using free), bound]
  dsimp only
  rw [Action.within_apply, Action.bind_apply, Action.attempt_apply, fails, policy]
  rfl

/-! ### What gets past the engine -/

theorem read_ok {r : Except BindError (Option Value)}
    (run : Engine.read self e o name w = some (r, w')) : ∃ x, r = .ok x := by
  unfold Engine.read at run
  rw [Action.read_bind] at run
  cases bound : ((w.engine e).bindings.get? name).bind Binding.read with
  | none =>
    rw [bound] at run
    cases run
    exact ⟨none, rfl⟩
  | some h =>
    rw [bound] at run
    obtain ⟨_, inner, rfl⟩ := Action.exists_of_within run
    rcases Action.exists_of_bind inner with ⟨_, failed, _⟩ | ⟨_, _, _, rest⟩
    · obtain ⟨_, _, same⟩ := Action.exists_of_attempt failed
      cases same
    · rw [policy] at rest
      exact settle_ok rest

theorem write_ok {r : Except BindError Unit}
    (run : Engine.write self e o name change w = some (r, w')) : r = .ok () := by
  unfold Engine.write at run
  rw [Action.read_bind] at run
  split at run
  · cases run
    rfl
  cases bound : ((w.engine e).bindings.get? name).bind Binding.write with
  | none =>
    rw [bound] at run
    cases run
    rfl
  | some h =>
    rw [bound] at run
    obtain ⟨_, inner, rfl⟩ := Action.exists_of_within run
    rcases Action.exists_of_bind inner with ⟨_, failed, _⟩ | ⟨_, _, _, rest⟩
    · obtain ⟨_, _, same⟩ := Action.exists_of_attempt failed
      cases same
    · rw [policy] at rest
      obtain ⟨_, ok⟩ := settle_ok rest
      exact ok

end

/-! ### Operations on the object -/

theorem World.Around.sustains (around : w.Around w') : w.Sustains w' := by
  obtain ⟨_, _, _, rfl⟩ := around
  exact ⟨World.Around.persists ⟨_, _, _, rfl⟩, .still rfl rfl,
    fun owned => owned.of_objects rfl (Nat.le_refl _)⟩

theorem Move.Sent.sustains {d : Declared} {move : Move} {c : Change} {u : World}
    (sent : Move.Sent o name w move c u) (known : w.declared? o = some d)
    (allowed : move.Allowed d name) : w.Sustains u := by
  have free (other : ∀ x, move ≠ .emit x) := allowed.free other
  have held : w.Sustains (w.hold [.object o]) := World.Around.sustains ⟨_, _, _, rfl⟩
  cases sent with
  | create | update =>
    exact World.frame_sustains.trans held
      (World.frame_sustains.store _ _ d _ _ known (free nofun) allowed.1)
  | event => exact held
  | @delete old stored =>
    refine World.frame_sustains.unset _ _ d _ old known (free nofun) ?_
    rwa [World.stored?, known] at stored

/-- The engine of an object logs failures and goes on. -/
structure World.Contains (w : World) (o : ObjectId) (e : EngineRef) : Prop where
  engine : w.engineOf? o = some e
  policy : (w.engine e).config.policy = .logAndContinue
  owned : w.Owned

namespace World.Contains
variable (contains : w.Contains o e) {n : Nat}
include contains

theorem mono (sustains : w.Sustains w') : w'.Contains o e where
  engine := sustains.engineOf? contains.engine
  policy := by rw [sustains.config (contains.owned.built contains.engine), contains.policy]
  owned := sustains.owned contains.owned

theorem around (around : w.Around w') : w'.Contains o e := contains.mono around.sustains

theorem exists_declared : ∃ d, w.declared? o = some d ∧ d.engine = some e :=
  Option.bind_eq_some_iff.1 contains.engine

/-- A change that is allowed succeeds. -/
theorem move_ok {d : Declared} {move : Move} {r : Except BindError Unit}
    (known : w.declared? o = some d) (allowed : move.Allowed d name)
    (run : move.run (perform n) o name w = some (r, w')) : r = .ok () := by
  rcases Move.exists_of_move known allowed run with
    ⟨_, rfl, _⟩ | ⟨c, u, u', sends, dispatched, _⟩
  · rfl
  have sent := Move.sent_of_sends sends
  have before := sent.sustains known allowed
  obtain ⟨rfl, rfl⟩ := sent.about
  have observable : w.registryOf? c.owner = some d.registry := by
    rw [World.registryOf?, known]
    rfl
  obtain ⟨k, told, ended, rest⟩ := exists_of_dispatch (before.registryOf? observable) dispatched
  have announced : (u.announce c).Contains c.owner e :=
    ((contains.mono before).mono (frame_sustains.change u c)).around ⟨_, _, _, rfl⟩
  have after := announced.mono
    (((frame_sustains.performing n).notify frame_sustains _ _).keeps _ _ _ ended)
  rw [after.engine] at rest
  obtain ⟨w₁, wrote, _⟩ := rest
  exact write_ok (after.around (told.around_hold [.engine e])).policy wrote

theorem guard (name : String) : (w.guard e name).Contains o e where
  engine := by
    unfold World.guard
    split <;> exact contains.engine
  policy := by
    rw [(Standing.guard e name).config (contains.owned.built contains.engine), contains.policy]
  owned := contains.owned.guard e name

/-- An update of an attribute that has no value succeeds. It is no constant, and what is read of it
can be assigned. -/
theorem update_ok {d : Declared} {r : Except BindError Unit} (known : w.declared? o = some d)
    (has : d.hasAttribute name = true) (unset : d.values.get? name = none)
    (run : Engine.update (perform n) e o name w = some (r, w')) : r = .ok () := by
  have free : d.isConstant name = false := by
    rw [← Bool.not_eq_true]
    intro constant
    have valued := contains.owned.valued known constant
    rw [Dict.contains, unset] at valued
    cases valued
  have held : (w.hold [.engine e, .object o]).Contains o e := contains.around ⟨_, _, _, rfl⟩
  obtain ⟨_, inner, rfl⟩ := Action.exists_of_holding run
  rcases Action.exists_of_bind inner with ⟨_, failed, _⟩ | ⟨x, w₁, reads, rest⟩
  · obtain ⟨_, same⟩ := read_ok held.policy failed
    cases same
  cases x with
  | none =>
    cases rest
    rfl
  | some x =>
    dsimp only at rest
    rw [Action.read_bind, Action.log_bind] at rest
    obtain ⟨w₂, assigned, _⟩ := exists_of_guarding rest
    have reading : (w.hold [.engine e, .object o]).Sustains
        (w₁.addEntry (.bindingUpdated o name (w₁.text x))) :=
      frame_sustains.trans (((frame_sustains.performing n).readBinding e o name).keeps _ _ _ reads)
        (frame_sustains.quiet ⟨rfl, id, id, id, Nat.le_refl _⟩)
    have there := (held.mono reading).guard name
    obtain ⟨d', known', constants, attributes⟩ :=
      (reading.toStanding.trans (.guard e name)).declared (d := d) known
    cases n with
    | zero => cases assigned
    | succ n =>
      have allowed : (Move.assign x).Allowed d' name := by
        refine ⟨attributes name has, fun constant => ?_⟩
        rw [Declared.isConstant, constants] at constant
        exact absurd constant (Bool.eq_false_iff.1 free)
      exact there.move_ok known' allowed assigned

theorem readAttr_ok {r : Except BindError (Option Value)}
    (run : readAttr (perform n) o name w = some (r, w')) : ∃ x, r = .ok x := by
  obtain ⟨d, known, engine⟩ := contains.exists_declared
  have held : (w.hold [.object o]).Contains o e := contains.around ⟨_, _, _, rfl⟩
  unfold readAttr at run
  rw [Action.read_bind, (w.declared?_eq_some).1 known] at run
  obtain ⟨_, inner, rfl⟩ := Action.exists_of_holding run
  unfold readDeclared at inner
  cases stored : d.values.get? name with
  | some x =>
    rw [stored] at inner
    cases inner
    exact ⟨_, rfl⟩
  | none =>
    rw [stored] at inner
    dsimp only at inner
    split at inner
    · cases inner
      exact ⟨_, rfl⟩
    next has =>
    rw [engine] at inner
    dsimp only at inner
    rw [Action.read_bind] at inner
    split at inner
    · rcases Action.exists_of_bind inner with ⟨_, failed, _⟩ | ⟨_, w₁, _, rest⟩
      · cases held.update_ok known (by simpa using has) stored failed
      · cases rest
        exact ⟨_, rfl⟩
    · cases inner
      exact ⟨_, rfl⟩

theorem populate_ok {r : Except BindError Unit} (run : populate (perform n) o w = some (r, w')) :
    r = .ok () := by
  unfold populate at run
  rw [Action.read_bind, contains.engine] at run
  dsimp only at run
  rw [Action.read_bind] at run
  obtain ⟨w₁, inner, rfl⟩ := Action.exists_of_holding run
  have held : (w.hold [.object o, .engine e]).Contains o e := contains.around ⟨_, _, _, rfl⟩
  have each (names : List String) {u u' : World} {r : Except BindError Unit}
      (here : u.Contains o e) (run : populateAll (perform n) o e names u = some (r, u')) :
      r = .ok () := by
    induction names generalizing u with
    | nil =>
      cases run
      rfl
    | cons name rest ih =>
      unfold populateAll at run
      rw [Action.read_bind, Action.read_bind] at run
      split at run
      · rcases Action.exists_of_bind run with ⟨_, failed, _⟩ | ⟨_, w₁, reads, others⟩
        · obtain ⟨_, same⟩ := here.readAttr_ok failed
          cases same
        · have reading := ((frame_sustains.performing n).readAttr o name).keeps _ _ _ reads
          exact ih (here.mono reading) others
      · exact ih here run
  exact each _ held inner

end World.Contains

/-- The action succeeds if something else ends, and does not end otherwise. It never fails. -/
def Action.SucceedsIf {α : Type} (a : Action α) (w : World) (ends : Prop) : Prop :=
  (ends → ∃ x w', a w = some (.ok x, w')) ∧ (¬ ends → a w = none)

theorem Action.succeedsIf {α : Type} {a : Action α} {ends : Prop} (same : (a w).isSome ↔ ends)
    (ok : ∀ r w', a w = some (r, w') → ∃ x, r = .ok x) : a.SucceedsIf w ends := by
  refine ⟨fun here => ?_, fun stuck => ?_⟩
  · obtain ⟨⟨r, w'⟩, run⟩ := Option.isSome_iff_exists.1 (same.2 here)
    obtain ⟨x, rfl⟩ := ok r w' run
    exact ⟨x, w', run⟩
  · exact Option.not_isSome_iff_eq_none.1 fun some => stuck (same.1 some)

/-- **Failures are contained.** Take an object whose engine logs failures and goes on, in any world
in which the host or a body asks for anything. Reading an attribute of the object, populating the
object, emitting a change of an attribute, and assigning or clearing an attribute that is no
constant never fail, whatever the bodies do that run meanwhile. They succeed if what they run
ends, with whatever outcome: the handlers of the attributes concerned, the observers of the change,
and the assignment with which an update ends. Whenever a handler fails for such an engine, one
entry in the log says so, with the object, the attribute and the failure, and that is all that
happens between the end of the handler and the end of the read, update or write that it was run
for: nothing is assigned, and no link is made or dropped. -/
theorem failures_contained {α : Type} {bodies m : Nat} {limit : Option Nat} {q : Request α}
    (underway : Underway bodies limit m q w) (engine : w.engineOf? o = some e)
    (policy : (w.engine e).config.policy = .logAndContinue) :
    (∀ n name, (perform (n + 1) _ (.readAttr o name)).SucceedsIf w
      (w.Waits e o name → Engine.UpdateEnds (perform n) e o name (w.hold [.object o]))) ∧
    (∀ n, (perform (n + 1) _ (.populate o)).SucceedsIf w
      (PopulateEnds (perform n) e o (w.engine e).names (w.hold [.object o, .engine e]))) ∧
    (∀ n d name move, w.declared? o = some d → Move.Allowed move d name →
      (move.run (perform n) o name).SucceedsIf w
        (∀ c u, move.sends o name w = some (c, u) → ChangeEnds (perform n) c u)) ∧
    ∀ (n : Nat) (e : EngineRef) (o : ObjectId) (name : String) (h : Handler) (cause : BindError)
      (u v : World), (u.engine e).config.policy = .logAndContinue →
      let entry := LogEntry.evaluationFailed o name cause
      let limited (w : World) : World := {w with limit := some (u.engine e).config.maxDepth}
      (entry.severity = .error ∧ entry.message = "binding evaluation failed" ∧
        ∀ describe, entry.fields describe = [("object", .text (describe o)),
          ("attribute", .text name), ("error", .text cause.message)]) ∧
      (((u.engine e).bindings.get? name).bind Binding.read = some h →
        (h.value (perform n) o name (limited u) = some (.error cause, v) →
          ∃ w', Engine.read (perform n) e o name u = some (.ok none, w') ∧
            (v.addEntry entry).Around w') ∧
        (h.value (perform n) o name (limited (u.hold [.engine e, .object o])) =
            some (.error cause, v) →
          ∃ w', Engine.update (perform n) e o name u = some (.ok (), w') ∧
            (v.addEntry entry).Around w')) ∧
      (((u.engine e).bindings.get? name).bind Binding.write = some h →
        name ∉ (u.engine e).guards → ∀ change,
          h.write (perform n) o name change (limited u) = some (.error cause, v) →
          ∃ w', Engine.write (perform n) e o name change u = some (.ok (), w') ∧
            (v.addEntry entry).Around w') := by
  have contains : w.Contains o e := ⟨engine, policy, World.owned_of_underway underway⟩
  refine ⟨fun n name => ?_, fun n => ?_, fun n d name move known allowed => ?_,
    fun n e o name h cause u v policy =>
      ⟨⟨rfl, rfl, fun _ => rfl⟩, fun bound => ⟨fun fails => ?_, fun fails => ?_⟩,
        fun bound free change fails => ?_⟩⟩
  · exact Action.succeedsIf (isSome_readAttr engine) fun _ _ => contains.readAttr_ok
  · exact Action.succeedsIf (isSome_populate engine) fun _ _ run => ⟨(), contains.populate_ok run⟩
  · exact Action.succeedsIf (isSome_move known allowed) fun _ _ run =>
      ⟨(), contains.move_ok known allowed run⟩
  · exact ⟨_, read_of_failed policy bound fails, _, _, _, rfl⟩
  · exact ⟨_, update_of_failed policy bound fails, _, _, _, rfl⟩
  · exact ⟨_, write_of_failed policy free bound fails, _, _, _, rfl⟩

namespace calmReader

/-- `x` of one object cannot be read, and its engine says so. `y` of another is that `x`, and `z`
fails whenever it changes, but the engine of that object goes on. -/
def session : Program Unit := do
  let item : Blueprint :=
    { typeName := "Item", parent := none, attributes := .empty, members := []
      constants := .empty, storage := .empty, config := none }
  let p ← .request (.newObject item)
  .request (.keep "source" (.object p))
  let o ← .request (.newObject {item with config := some {policy := .logAndContinue}})
  .request (.keep "item" (.object o))
  let broken ← .request (.newFunction "broken" ⟨.empty, .empty⟩ fun _ _ =>
    .fail (.evaluation "broken"))
  let x ← .request (.newFunction "y" ⟨.empty, .empty⟩ fun _ => fun
    | .traced t => .request (.loadAttr t (.object p) "x")
    | _ => return .null)
  .request (.bind p "x" .subscribe broken (.given 0))
  .request (.bind o "y" .subscribe x (.given 1))
  .request (.bind o "z" .notify broken (.given 2))

def start : World := (session.run (perform 12) (.initial #[])).elim (.initial #[]) Prod.snd

theorem reachable : Reachable start := (Reachable.start #[]).final 12 session

/-- The world in which the handler of `y` is run. -/
def inside : World :=
  {start.hold [.engine ⟨1⟩, .object ⟨1⟩] with limit := some (start.engine ⟨1⟩).config.maxDepth}

def reader : Handler := ⟨.tracedRead, ⟨1⟩, .given 1⟩

/-- The world after `y` has been read in vain. -/
def tried : World := (reader.value (perform 11) ⟨1⟩ "y" inside).elim inside Prod.snd

/-- The world after 1 has been assigned to `z`. -/
def assigned : World := (assign (perform 11) ⟨1⟩ "z" (.int 1) start).elim start Prod.snd

theorem both_fail : start.engineOf? ⟨1⟩ = some ⟨1⟩ ∧
    (start.engine ⟨1⟩).config.policy = .logAndContinue ∧
    ((start.engine ⟨1⟩).bindings.get? "y").bind Binding.read = some reader ∧
    (reader.value (perform 11) ⟨1⟩ "y" inside).map Prod.fst =
      some (.error (.evaluation "broken")) ∧
    (start.declared? ⟨1⟩).any (fun d => !d.isConstant "z" && d.hasAttribute "z") = true ∧
    (perform 12 _ (.readAttr ⟨1⟩ "y") start).isSome = true ∧
    (assign (perform 11) ⟨1⟩ "z" (.int 1) start).isSome = true := by
  decide +kernel

/-- Reading `y`, the update that this brings about, and assigning to `z` succeed, although both
handlers fail. -/
theorem succeeds : (∃ x w', perform 12 _ (.readAttr ⟨1⟩ "y") start = some (.ok x, w')) ∧
    (∃ w', Engine.update (perform 11) ⟨1⟩ ⟨1⟩ "y" start = some (.ok (), w') ∧
      (tried.addEntry (.evaluationFailed ⟨1⟩ "y" (.evaluation "broken"))).Around w') ∧
    assign (perform 11) ⟨1⟩ "z" (.int 1) start = some (.ok (), assigned) := by
  obtain ⟨engine, policy, bound, fails, there, reads, assigns⟩ := both_fail
  obtain ⟨known, here⟩ := (Option.any_eq_true_iff_get ..).1 there
  obtain ⟨d, known⟩ := Option.isSome_iff_exists.1 known
  simp only [known, Option.get_some, Bool.and_eq_true, Bool.not_eq_true'] at here
  have allowed : (Move.assign (.int 1)).Allowed d "z" :=
    ⟨here.2, fun constant => absurd constant (Bool.eq_false_iff.1 here.1)⟩
  obtain ⟨reading, _, moving, handlers⟩ := failures_contained
    (.host reachable : Underway 0 none 12 (.populate ⟨1⟩) start) engine policy
  refine ⟨?_, ?_, ?_⟩
  · refine (reading 11 "y").1 (by_contra fun stuck => ?_)
    rw [(reading 11 "y").2 stuck] at reads
    cases reads
  · obtain ⟨⟨r, v⟩, run, rfl⟩ := Option.map_eq_some_iff.1 fails
    have same : tried = v := by rw [tried, run, Option.elim_some]
    rw [same]
    exact ((handlers 11 ⟨1⟩ ⟨1⟩ "y" reader _ start v policy).2.1 bound).2 run
  · have moves := moving 11 d "z" (.assign (.int 1)) known allowed
    obtain ⟨_, v, run⟩ := moves.1 <| by_contra fun stuck => by
      rw [show assign _ _ _ _ _ = none from moves.2 stuck] at assigns
      cases assigns
    have ran : assign (perform 11) ⟨1⟩ "z" (.int 1) start = some (.ok (), v) := run
    rw [assigned, ran, Option.elim_some]

/-- The handler of `z` has failed, and is told of once. -/
example : (assigned.log.toList.drop start.log.size).map LogEntry.message =
    ["call_func", "binding evaluation failed"] := by decide +kernel

end calmReader

end LiveBinding
