import LiveBinding.Proofs.Records
import LiveBinding.Proofs.Subscriptions

/-! Dependents do not fail whoever changes an attribute.

A change is told to one observer after the other, and none of them can stop it: an update that
fails leaves an entry in the log, and the next observer is told. So if nothing is written back,
changing an attribute that may be changed succeeds, whatever depends on it and however that
fails. -/
namespace LiveBinding
variable {self : Performer} {w w' : World} {o : ObjectId} {name : String} {change : ObjectId}

/-! ### Nothing to write back -/

/-- The handler that writes back what an attribute changes to. -/
def World.writer? (w : World) (o : ObjectId) (name : String) : Option Handler :=
  (w.engineOf? o).bind fun e => ((w.engine e).bindings.get? name).bind Binding.write

/-- Nothing is written back of an attribute without a write handler. -/
theorem exists_of_writerless {e : EngineRef} {r : Except BindError Unit}
    (none : ((w.engine e).bindings.get? name).bind Binding.write = none)
    (run : Engine.write self e o name change w = some (r, w')) :
    r = .ok () ∧ (w' = w ∨ w' = w.addEntry (.writeSuppressed o name)) := by
  by_cases guarded : name ∈ (w.engine e).guards
  · exact (exists_of_guarded guarded run).imp_right .inr
  · unfold Engine.write at run
    rw [Action.read_bind, if_neg (by simpa using guarded), none] at run
    cases run
    exact ⟨rfl, .inl rfl⟩

/-- There is no handler to write a move back once its observers have been told. -/
def Move.Unwritten (self : Performer) (o : ObjectId) (name : String) (move : Move) (w : World) :
    Prop :=
  ∀ c u reg k told, move.sends o name w = some (c, u) → w.registryOf? o = some reg →
    notify self reg ⟨u.objects.size⟩ (u.announce c) = some (.ok k, told) →
    told.writer? o name = none

/-- **Dependents do not fail whoever changes an attribute.** To assign an attribute of a declared
object, to emit a change of it or to clear it succeeds if there is no handler to write it back,
unless it is a constant, which is neither assigned nor cleared. Unless there is no change to make
known, what is assigned is stored before anybody is told, and all observers that are held when
the change is dispatched are told, one after the other in the order of registration. Nothing
else happens after that. When one of them is a binding whose update fails, the notification goes
on with an entry in the log that is an error, and that is all that is left of the failure. -/
theorem setter_isolated {n : Nat} {d : Declared} {move : Move} {r : Except BindError Unit}
    (known : w.declared? o = some d) (allowed : move.Allowed d name)
    (unwritten : move.Unwritten (perform n) o name w)
    (run : move.run (perform n) o name w = some (r, w')) :
    r = .ok () ∧
    ((move.sends o name w = none ∧ w' = w) ∨
      ∃ c u last, move.sends o name w = some (c, u) ∧
        let first := (u.announce c).notifying d.registry ⟨u.objects.size⟩ c
        (∀ x, move = .assign x → first.stored? o name = some x) ∧
        Told (perform n) ⟨u.objects.size⟩
          ((u.announce c).liveObservers (w.observersOf ⟨o, name⟩)) first last ∧
        (last.Around w' ∨ (last.addEntry (.writeSuppressed o name)).Around w')) ∧
    ∀ (v v' : World) (change : ObjectId) (c : Change) (l : LinkRef) (k : Link) (cause : BindError),
      v.links[l.index]? = some k → v.change? change = some c →
      v.isLive (.engine k.engine) = true → v.isLive (.object k.owner) = true →
      Engine.update (perform n) k.engine k.owner k.name
        ((v.tell (.link l) change).addEntry
          (.dependencyChanged k.owner k.name c.owner c.name)) = some (.error cause, v') →
      ∃ entry : LogEntry, entry.severity = .error ∧
        inform (perform n) change (.link l) v = some (.ok (), v'.addEntry entry) := by
  have observable : w.registryOf? o = some d.registry := by
    rw [World.registryOf?, known]
    rfl
  rw [← and_assoc]
  refine ⟨?_, fun v v' change c l k cause made what engine owner fails =>
    ⟨.updateFailed k.owner k.name cause, rfl, by
      rw [inform_link made what engine owner, fails, Option.map_some]⟩⟩
  rcases Move.exists_of_move known allowed run with
    ⟨none, rfl, rfl⟩ | ⟨c, u, u', sends, dispatched, around⟩
  · exact ⟨rfl, .inl ⟨none, rfl⟩⟩
  have sent := Move.sent_of_sends sends
  have before : w.Persists u := sent.persists
  obtain ⟨rfl, rfl⟩ := sent.about
  obtain ⟨k, told, ended, rest⟩ := exists_of_dispatch (before.registryOf? observable) dispatched
  obtain ⟨_, last, delivered, rfl⟩ := exists_of_notify (u.change?_announce c) ended
  have listed : ((u.announce c).registry d.registry).observers c.name =
      w.observersOf ⟨c.owner, c.name⟩ := by
    rw [World.observersOf, observable]
    show ((u.registry d.registry).observers c.name) = _
    rw [World.registry, sent.registries]
    rfl
  rw [listed] at delivered
  have stored (x : Value) (assigns : move = .assign x) :
      ((u.announce c).notifying d.registry ⟨u.objects.size⟩ c).stored? c.owner c.name = some x := by
    simp only [World.stored?, World.declared?, World.entity?, World.objects_notifying]
    exact (u.valueOf?_announce c ⟨c.owner, c.name⟩).trans
      (sent.stored_of_assign ⟨d, known, allowed.1⟩ assigns)
  have nothing := unwritten c u d.registry k _ sends observable ended
  have enter : last.Around {last with held := (u.announce c).held} := ⟨_, _, _, rfl⟩
  suffices done : r = .ok () ∧
      (last.Around w' ∨ (last.addEntry (.writeSuppressed c.owner c.name)).Around w') from
    ⟨done.1, .inr ⟨c, u, last, sends, stored, delivered, done.2⟩⟩
  split at rest
  · exact ⟨rest.1, .inl ((enter.trans rest.2).trans around)⟩
  · next e engine =>
    obtain ⟨w₁, wrote, done⟩ := rest
    have begun := World.around_hold {last with held := (u.announce c).held} [.engine e]
    rw [World.writer?, engine, Option.bind_some, ← begun.engine] at nothing
    obtain ⟨ok, same | same⟩ := exists_of_writerless nothing wrote
    · subst same
      exact ⟨ok, .inl (((enter.trans begun).trans done).trans around)⟩
    · subst same
      exact ⟨ok, .inr (World.Around.trans ⟨_, _, _, rfl⟩ (done.trans around))⟩

namespace stubborn

/-- A body that gives an attribute of its object, if that is not zero. -/
def needs (name : String) (s : Scope) : Arguments → Program Value
  | .traced t => do
    let v ← .request (.loadAttr t (.object s.owner) name)
    if ← .query (.isTrue v) then return v else .fail (.evaluation "nothing to show")
  | _ => return .null

/-- `b` and `c` are `a`, `b` fails if that is zero, and `d` is `c`, which fails likewise. -/
def session : Program Unit := do
  let o ← .request (.newObject
    { typeName := "Item", parent := none, attributes := .ofList [("a", .int 1)], members := []
      constants := .empty, storage := .empty, config := none })
  .request (.keep "item" (.object o))
  let needed (name : String) : Program FunctionRef :=
    .request (.newFunction name ⟨.empty, .empty⟩ (needs name))
  .request (.bind o "b" .subscribe (← needed "a") (.given 0))
  let copy ← .request (.newFunction "c" ⟨.empty, .empty⟩ fun s => fun
    | .traced t => .request (.loadAttr t (.object s.owner) "a")
    | _ => return .null)
  .request (.bind o "c" .subscribe copy (.given 1))
  .request (.bind o "d" .subscribe (← needed "c") (.given 2))
  for name in ["b", "c", "d"] do
    let _ ← Program.request (.readAttr o name)

def start : World := (session.run (perform 12) (.initial #[])).elim (.initial #[]) Prod.snd

/-- The world after zero has been assigned to `a`. -/
def later : World := (assign (perform 11) ⟨0⟩ "a" (.int 0) start).elim start Prod.snd

/-- What assigning zero makes known, and the world that it is about by then. -/
def zero : Change := ⟨.update, ⟨0⟩, "a", .int 1, .int 0⟩

def stored : World := (start.hold [.object ⟨0⟩]).store ⟨⟨0⟩, "a"⟩ (.int 0)

/-- Nothing is written back after all who observe `a` have been told of zero. -/
theorem unwritten_zero : ((notify (perform 11) ⟨0⟩ ⟨4⟩ (stored.announce zero)).all fun x =>
    (x.2.writer? ⟨0⟩ "a").isNone) = true := by
  decide +kernel

theorem observed_zero :
    (start.declared? ⟨0⟩).any (fun d => decide (d.isConstant "a" = false ∧
      d.hasAttribute "a" = true ∧ d.registry = ⟨0⟩)) = true ∧
    start.stored? ⟨0⟩ "a" = some (.int 1) ∧ start.equal (.int 1) (.int 0) = false ∧
    start.objects.size = 4 ∧
    (stored.announce zero).liveObservers (start.observersOf ⟨⟨0⟩, "a"⟩) =
      [.link ⟨0⟩, .link ⟨1⟩] ∧
    (assign (perform 11) ⟨0⟩ "a" (.int 0) start).any (·.1.isOk) = true := by
  decide +kernel

/-- Both links are told that `a` is zero, after it has become zero, and that is all. -/
theorem told_in_turn :
    ((stored.announce zero).notifying ⟨0⟩ ⟨4⟩ zero).stored? ⟨0⟩ "a" = some (.int 0) ∧
    ∃ last, Told (perform 11) ⟨4⟩ [.link ⟨0⟩, .link ⟨1⟩]
        ((stored.announce zero).notifying ⟨0⟩ ⟨4⟩ zero) last ∧
      (last.Around later ∨ (last.addEntry (.writeSuppressed ⟨0⟩ "a")).Around later) := by
  obtain ⟨declared, old, differs, size, both, succeeds⟩ := observed_zero
  obtain ⟨d, known, facts⟩ := (Option.any_eq_true _ _).1 declared
  obtain ⟨free, has, registry⟩ := of_decide_eq_true facts
  have sends : (Move.assign (.int 0)).sends ⟨0⟩ "a" start = some (zero, stored) := by
    simp only [Move.sends, old, differs, Bool.false_eq_true, if_false]
    rfl
  have here : (⟨stored.objects.size⟩ : ObjectId) = ⟨4⟩ := by
    rw [← size]
    exact congrArg ObjectId.mk Array.size_modify
  have unwritten : (Move.assign (.int 0)).Unwritten (perform 11) ⟨0⟩ "a" start := by
    intro c u reg k told sends' observable ended
    cases sends.symm.trans sends'
    rw [World.registryOf?, known, Option.map_some, registry] at observable
    cases observable
    rw [here] at ended
    simpa [ended] using unwritten_zero
  have run : (Move.assign (.int 0)).run (perform 11) ⟨0⟩ "a" start = some (.ok (), later) :=
    Action.eq_some_of_isOk succeeds
  obtain ⟨_, ⟨none, _⟩ | ⟨c, u, last, sends', value, told, after⟩, _⟩ :=
    setter_isolated known ⟨has, fun constant => absurd constant (by simp [free])⟩ unwritten run
  · cases sends.symm.trans none
  · cases sends.symm.trans sends'
    rw [registry, here] at value
    rw [registry, here, both] at told
    exact ⟨value _ rfl, last, told, after⟩

/-- The updates of `b` and `d` fail, one of them in the update of `c`, which does not fail. -/
example : later.stored? ⟨0⟩ "b" = some (.int 1) ∧ later.stored? ⟨0⟩ "c" = some (.int 0) ∧
    later.stored? ⟨0⟩ "d" = some (.int 1) := by
  decide +kernel

end stubborn

end LiveBinding
