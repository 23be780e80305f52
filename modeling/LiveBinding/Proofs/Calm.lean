import LiveBinding.Proofs.Checks
import LiveBinding.Proofs.Reachable
import LiveBinding.Proofs.Records

/-! Changes that come one at a time.

Every change that is made known is an object of the world, and objects are never taken away. So
the world tells which changes of an attribute there have been, and in which order they were
made. It also tells what each watcher has been told. A performer can see to it that no other
change of an attribute is made while one is being delivered, and that nobody makes changes of it
up, delivers one of them once more or binds it anew: it gives no answer to a request that does
so. -/
namespace LiveBinding

/-- The change is about the attribute. -/
def Change.About (c : Change) (a : Dependency) : Prop := c.owner = a.object ∧ c.name = a.name

instance (c : Change) (a : Dependency) : Decidable (c.About a) :=
  inferInstanceAs (Decidable (_ ∧ _))

/-- The change there is, if the entity is one. -/
def Entity.change? : Entity → Option Change
  | .change c => some c
  | _ => none

namespace World
variable {w w' : World} {a : Dependency}

/-- The changes of an attribute that there are, in the order in which they were made. -/
def changes (w : World) (a : Dependency) : List Change :=
  (w.objects.toList.filterMap Entity.change?).filter (·.About a)

theorem changes_of_objects (same : w'.objects = w.objects) (a : Dependency) :
    w'.changes a = w.changes a := by rw [changes, changes, same]

theorem changes_addObject (w : World) (x : Entity) (a : Dependency) :
    (w.addObject x).1.changes a = w.changes a ++ (x.change?.filter (·.About a)).toList := by
  show ((w.objects.push x).toList.filterMap Entity.change?).filter _ = _
  rw [Array.toList_push, List.filterMap_append, List.filter_append]
  congr 1
  cases known : x.change? with
  | none => simp [known]
  | some c => by_cases about : c.About a <;> simp [known, about, Option.filter]

theorem filterMap_modify {g : Entity → Entity} (same : ∀ x, (g x).change? = x.change?)
    (xs : List Entity) (i : Nat) :
    (xs.modify i g).filterMap Entity.change? = xs.filterMap Entity.change? := by
  induction xs generalizing i with
  | nil => rw [List.modify_nil]
  | cons x rest ih =>
    cases i with
    | zero => rw [List.modify_zero_cons, List.filterMap_cons, List.filterMap_cons, same]
    | succ i => rw [List.modify_succ_cons, List.filterMap_cons, List.filterMap_cons, ih]

/-- Changes are no declared objects. -/
theorem changes_modifyDeclared (w : World) (o : ObjectId) (f : Declared → Declared)
    (a : Dependency) : (w.modifyDeclared o f).changes a = w.changes a := by
  show ((w.objects.modify o.index _).toList.filterMap Entity.change?).filter _ = _
  rw [Array.toList_modify, filterMap_modify, changes]
  intro x
  cases x <;> rfl

/-- The changes of an attribute that a watcher has been told of, in the order in which it was. -/
def heard (w : World) (a : Dependency) (x : WatcherRef) : List Change :=
  w.told.toList.filterMap fun y =>
    if y.1 = .watcher x then y.2.filter (·.About a) else none

theorem heard_of_told (same : w'.told = w.told) (a : Dependency) (x : WatcherRef) :
    w'.heard a x = w.heard a x := by rw [heard, heard, same]

/-- Whoever is told of a change has heard of it. -/
theorem heard_tell (w : World) (y : Observer) (change : ObjectId) (a : Dependency)
    (x : WatcherRef) : (w.tell y change).heard a x = w.heard a x ++
      (if y = .watcher x then (w.change? change).filter (·.About a) else none).toList := by
  show List.filterMap _ (w.told.push (y, w.change? change)).toList = _
  rw [Array.toList_push, List.filterMap_append, heard]
  congr 1

end World

/-! ### One change at a time -/

/-- To answer the request, no change of an attribute is made up or delivered once more, and the
attribute is not bound anew. And if the attribute is assigned, emitted or cleared, no other change
of it is made before that one has been delivered. -/
structure Request.Calm {α : Type} (performer : Performer) (a : Dependency) (q : Request α)
    (w : World) : Prop where
  spares : q.Arranges → ∀ {r w'}, respond performer α q w = some (r, w') →
    w'.changes a = w.changes a ∧ ∀ {e}, w.engineOf? a.object = some e →
      (w'.engine e).bindings.get? a.name = (w.engine e).bindings.get? a.name
  fresh : ∀ {i c}, q.delivered? = some i → w.change? i = some c → ¬ c.About a
  alone : ∀ {move v r v'}, Makes performer a.object a.name q w move v →
    move.run performer a.object a.name v = some (r, v') →
      (v'.changes a).length ≤ (v.changes a).length + 1

open Classical in
/-- Answers requests within so many nested steps, as long as the changes of an attribute come one
at a time. -/
noncomputable def performCalm (a : Dependency) : Nat → Performer :=
  performChecked fun self _ _ q w _ => q.Calm self a w

/-- Requests that are asked one after the other, while the changes of an attribute come one at a
time. -/
inductive CalmRun (a : Dependency) (w : World) : World → Prop where
  | start : CalmRun a w w
  | request {α : Type} {n : Nat} {q : Request α} {r : Except BindError α} {v w' : World}
      (before : CalmRun a w v) (answer : performCalm a n α q v = some (r, w')) : CalmRun a w w'

section
variable {a : Dependency} {n : Nat} {α : Type} {q : Request α} {r : Except BindError α}
  {w w' : World}

open Classical in
theorem exists_of_calm (run : performCalm a n α q w = some (r, w')) :
    ∃ m, n = m + 1 ∧ q.Calm (performCalm a m) a w ∧
      respond (performCalm a m) α q w = some (r, w') := by
  obtain ⟨m, same, answer, calm⟩ := exists_of_checked run
  exact ⟨m, same, of_decide_eq_true calm, answer⟩

/-- The requests are asked by a host like any others. -/
theorem CalmRun.reachable (run : CalmRun a w w') (reached : Reachable w) : Reachable w' := by
  induction run with
  | start => exact reached
  | request _ answer ih => exact ih.ask (perform_of_checked answer)

theorem calming {R : World → World → Prop} (F : Frame R) (a : Dependency) (n : Nat) :
    Accord (fun _ => True) R (performCalm a n) (performCalm a n) :=
  F.itself fun _ q w r w' run => (F.checked _ n q w r w' run).2

end

end LiveBinding
