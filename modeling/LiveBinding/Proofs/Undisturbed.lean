import LiveBinding.Proofs.Checks
import LiveBinding.Proofs.Looks

/-! Undisturbed evaluations.

References are numbers here, so code could be written that makes up the reference of somebody's
tracer and empties it. A performer can watch one tracer and refuse every answer that takes something
from its record. -/
namespace LiveBinding

/-! ### Native functions -/

namespace World
variable {w w' : World}

/-- The native functions that there are stay. -/
def NativesStay (w w' : World) : Prop :=
  ∀ (i : Nat) (n : Native), w.natives[i]? = some n → w'.natives[i]? = some n

theorem steady_natives : Steady NativesStay where
  trans first next i n here := next i n (first i n here)
  quiet quiet _ _ := quiet.natives

/-- What requests do to the native functions: nothing but add some. -/
theorem frame_natives : Frame fun w w' => w.Persists w' ∧ w.NativesStay w' where
  trans first next := ⟨first.1.trans next.1, steady_natives.trans first.2 next.2⟩
  quiet quiet := ⟨.quiet quiet, steady_natives.quiet quiet⟩
  hold inside := ⟨frame_persists.hold inside.1, inside.2⟩
  limited inside := ⟨frame_persists.limited inside.1, inside.2⟩
  nested inside := ⟨frame_persists.nested inside.1, inside.2⟩
  guarded {w w' e name} inside := by
    refine ⟨frame_persists.guarded inside.1, fun i n here => ?_⟩
    have there : w'.natives[i]? = some n := by
      refine inside.2 i n ?_
      unfold guard
      split
      · exact here
      · exact here
    unfold unguard
    split
    · exact there
    · exact there
  change w c := ⟨frame_persists.change w c, fun _ _ => id⟩
  view w o t there := ⟨frame_persists.view w o t there, fun _ _ => id⟩
  object b w r w' run :=
    have stay := steady_natives.newObject b (fun _ _ _ => id) (fun _ _ _ _ => id) w r w' run
    ⟨frame_persists.object b w r w' run, stay⟩
  store w o d name v known constant declared :=
    ⟨frame_persists.store w o d name v known constant declared, fun _ _ => id⟩
  unset w o d name old known constant stored :=
    ⟨frame_persists.unset w o d name old known constant stored, fun _ _ => id⟩
  slot w o key free := ⟨frame_persists.slot w o key free, fun _ _ => id⟩
  bind o name op f key w r w' run :=
    have stay := steady_natives.bindAttribute o name op f key (fun _ _ _ => id)
      (fun _ _ _ _ => id) (fun _ _ _ _ => id) (fun _ _ _ _ => id) w r w' run
    ⟨frame_persists.bind o name op f key w r w' run, stay⟩
  registry w := ⟨frame_persists.registry w, fun _ _ => id⟩
  observe w r name c := ⟨frame_persists.observe w r name c, fun _ _ => id⟩
  prune w r name xs found := ⟨frame_persists.prune w r name xs found, fun _ _ => id⟩
  tell w x change := ⟨frame_persists.tell w x change, fun _ _ => id⟩
  tracer w owner name := ⟨frame_persists.tracer w owner name, fun _ _ => id⟩
  trace w t o name := ⟨frame_persists.trace w t o name, fun _ _ => id⟩
  drain w t := ⟨frame_persists.drain w t, fun _ _ => id⟩
  engine w config := ⟨frame_persists.engine w config, fun _ _ => id⟩
  addBinding w e name b := ⟨frame_persists.addBinding w e name b, fun _ _ => id⟩
  clear w e := ⟨frame_persists.clear w e, fun _ _ => id⟩
  bound inside := frame_persists.bound inside.1
  relink w e owner name t bound r w' run :=
    have stay := steady_natives.relink e owner name t (fun _ _ _ _ => id) (fun _ _ _ => id)
      (fun _ _ _ _ => id) (fun _ _ _ _ _ _ => id) (fun _ _ _ _ => id) w r w' run
    ⟨frame_persists.relink w e owner name t bound r w' run, stay⟩

/-- A program that ends leaves the native functions that there were. -/
theorem nativesStay_final {α : Type} (n : Nat) (p : Program α) (w : World) :
    w.NativesStay ((p.run (perform n) w).elim w Prod.snd) := by
  cases ends : p.run (perform n) w with
  | none => exact fun _ _ => id
  | some x => exact (((frame_natives.performing n).run p).keeps _ _ _ ends).2

end World

/-! ### What a tracer has recorded -/

/-- Nothing is lost of what a tracer has recorded. -/
def World.retains (w w' : World) (t : TracerRef) : Bool :=
  match w.tracers[t.index]?, w'.tracers[t.index]? with
  | none, _ => true
  | some _, none => false
  | some x, some y => x.dependencies.all y.contains

/-- The values that a request looks into, down to the bottom. -/
def Request.lookedInto : {α : Type} → Request α → List Value
  | _, .query (.equal v _) | _, .query (.text v) | _, .query (.snapshot v) => [v]
  | _, _ => []

/-- Answers requests within so many nested steps, none of which takes away from what a tracer
has recorded. Values that are looked into have to end, and in a world with `less` containers less
they would. -/
def performSparing (t : TracerRef) (less : Nat) : Nat → Performer :=
  performChecked fun _ _ _ q w w' => w.retains w' t &&
    q.lookedInto.all fun v => decide (w.Shallow (w.containers - less) v)

variable {w w' : World} {t : TracerRef} {less n : Nat} {α : Type}

theorem exists_of_sparing {q : Request α} {r : Except BindError α}
    (run : performSparing t less n α q w = some (r, w')) :
    ∃ m, n = m + 1 ∧ respond (performSparing t less m) α q w = some (r, w') ∧
      w.retains w' t = true ∧ ∀ v ∈ q.lookedInto, w.Shallow (w.containers - less) v := by
  obtain ⟨m, same, answer, passed⟩ := exists_of_checked run
  obtain ⟨kept, shallow⟩ := Bool.and_eq_true_iff.1 passed
  exact ⟨m, same, answer, kept, fun v mem => of_decide_eq_true (List.all_eq_true.1 shallow v mem)⟩

theorem World.retains_iff (inside : t.index < w.tracers.size) : w.retains w' t = true ↔
    t.index < w'.tracers.size ∧
      ∀ d ∈ (w.tracer t).dependencies, d ∈ (w'.tracer t).dependencies := by
  have here := Array.getElem?_eq_getElem inside
  cases there : w'.tracers[t.index]? with
  | none =>
    have outside : ¬ t.index < w'.tracers.size := by
      intro within
      rw [Array.getElem?_eq_getElem within] at there
      cases there
    simp only [retains, here, there, outside, false_and, Bool.false_eq_true]
  | some y =>
    have within := (Array.getElem?_eq_some_iff.1 there).1
    simp only [retains, tracer, here, there, within, true_and, List.all_eq_true,
      Tracer.contains_iff, Option.getD_some]

/-- A program loses nothing if its requests do not. -/
theorem retained_of_run {p : Program α} {r : Except BindError α} {w w' : World}
    (inside : t.index < w.tracers.size) (run : p.run (performSparing t less n) w = some (r, w')) :
    t.index < w'.tracers.size ∧
      ∀ d ∈ (w.tracer t).dependencies, d ∈ (w'.tracer t).dependencies := by
  match p with
  | .done r =>
    cases run
    exact ⟨inside, fun _ => id⟩
  | .ask q k =>
    unfold Program.run at run
    split at run
    · cases run
    · next r' u answer =>
      obtain ⟨m, _, _, kept, _⟩ := exists_of_sparing answer
      obtain ⟨inside', more⟩ := (World.retains_iff inside).1 kept
      obtain ⟨inside'', more'⟩ := retained_of_run inside' run
      exact ⟨inside'', fun d mem => more' d (more d mem)⟩
termination_by structural p

theorem natives_of_run {p : Program α} {r : Except BindError α} {i : Nat} {x : Native}
    (run : p.run (performSparing t less n) w = some (r, w')) (here : w.natives[i]? = some x) :
    w'.natives[i]? = some x :=
  (((World.frame_natives.checking _ n).run p).keeps w r w' run).2 i x here

end LiveBinding
