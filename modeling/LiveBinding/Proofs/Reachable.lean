import LiveBinding.Proofs.FrameOperations
import LiveBinding.Session.Run

/-! Worlds that a host brings about.

A host starts in a world with nothing in it but native functions. From there it asks for
one thing after the other, holds on to things meanwhile, and carries off what the log and
its desk have gathered. -/
namespace LiveBinding

/-- A link is held by its engine, and by a notification in progress, but by no host. -/
def Handle.isLink : Handle → Bool
  | .link _ => true
  | _ => false

inductive Reachable : World → Prop where
  | start (natives : Array Native) : Reachable (.initial natives)
  | ask {w w' : World} {α : Type} {n : Nat} {q : Request α} {r : Except BindError α}
      (before : Reachable w) (answer : perform n α q w = some (r, w')) : Reachable w'
  /-- The host lets go of what it held and holds other things. -/
  | hold {w : World} (before : Reachable w) (hs : List Handle)
      (plain : ∀ h ∈ hs, h.isLink = false) : Reachable {w with held := hs}
  | collect {w : World} (before : Reachable w) :
      Reachable {w with log := #[], desk := {w.desk with events := #[]}}

namespace Reachable

/-- A program asks for one thing after the other. -/
theorem run {α : Type} {n : Nat} (p : Program α) {w w' : World} {r : Except BindError α}
    (before : Reachable w) (ends : p.run (perform n) w = some (r, w')) : Reachable w' := by
  match p with
  | .done r =>
    cases ends
    exact before
  | .ask q k =>
    unfold Program.run at ends
    split at ends
    · cases ends
    · next r' w'' first => exact run (k r') (before.ask first) ends
termination_by structural p

/-- The world a program leaves, or the one it found if it does not end. -/
theorem final {α : Type} (n : Nat) (p : Program α) {w : World} (before : Reachable w) :
    Reachable ((p.run (perform n) w).elim w Prod.snd) := by
  cases ends : p.run (perform n) w with
  | none => exact before
  | some x => exact before.run p ends

/-- Every step of a session leads to a reachable world. -/
theorem advance {α : Type} (watches : List (String × String)) (p : Program α) {w : World}
    (before : Reachable w) : Reachable (Session.advance watches p w).2 := by
  unfold Session.advance
  cases ends : (Session.step p).run (perform Session.nesting) w with
  | none => exact before.collect
  | some x => exact (before.run _ ends).collect

/-- What holds in the beginning and is kept by every request, by what the host holds and
by what it carries off, holds in every reachable world. -/
theorem invariant {R : World → World → Prop} (F : Frame R) {P : World → Prop}
    (start : ∀ natives, P (.initial natives)) (kept : ∀ {w w'}, R w w' → P w → P w')
    (hold : ∀ {w} hs, (∀ h ∈ hs, h.isLink = false) → P w → P {w with held := hs})
    (collect : ∀ {w : World}, P w → P {w with log := #[], desk := {w.desk with events := #[]}})
    {w : World} (reached : Reachable w) : P w := by
  induction reached with
  | start natives => exact start natives
  | ask before answer ih => exact kept (F.perform _ _ _ _ _ answer) ih
  | hold before hs plain ih => exact hold hs plain ih
  | collect before ih => exact collect ih

end Reachable

end LiveBinding
