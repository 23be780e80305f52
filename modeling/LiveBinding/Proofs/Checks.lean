import LiveBinding.Proofs.Persistence

/-! Performers that check what they answer.

Some statements are about runs in which nobody does certain things: nobody makes a change up, say,
or uses a tracer that is not his. A performer can see to that. It puts every request to a test, by
what is asked and in which world, and by the world that the answer leaves, and does not answer if
the request fails. What it does answer it answers as `perform` does. -/
namespace LiveBinding

/-- A test of a request. It is told by whom the request is answered and with how many nested steps,
the world it is asked in and the world that is left. -/
def Check := Performer → Nat → (α : Type) → Request α → World → World → Bool

/-- Answers requests within so many nested steps, as long as they pass. -/
def performChecked (check : Check) : Nat → Performer
  | 0 => fun _ _ _ => none
  | n + 1 => fun α q w =>
    (respond (performChecked check n) α q w).filter fun x =>
      check (performChecked check n) n α q w x.2

variable {check : Check} {n : Nat} {α : Type} {q : Request α} {r : Except BindError α}
  {w w' : World}

theorem exists_of_checked (run : performChecked check n α q w = some (r, w')) :
    ∃ m, n = m + 1 ∧ respond (performChecked check m) α q w = some (r, w') ∧
      check (performChecked check m) m α q w w' = true := by
  cases n with
  | zero => cases run
  | succ m =>
    obtain ⟨answer, passed⟩ := Option.filter_eq_some_iff.1 run
    exact ⟨m, rfl, answer, passed⟩

namespace Frame
variable {R : World → World → Prop} (F : Frame R)
include F

/-- The answers are those of `perform`, so nothing leads out of a frame. -/
theorem checked (check : Check) (n : Nat) (q : Request α) :
    (performChecked check n α q).Refines R (LiveBinding.perform n α q) := by
  induction n generalizing α with
  | zero =>
    intro w r w' run
    cases run
  | succ n ih =>
    intro w r w' run
    obtain ⟨answer, _⟩ := Option.filter_eq_some_iff.1 run
    exact (F.accord fun β q => ih q).respond F q w trivial r w' answer

/-- What operations come to with a performer that checks, they come to with `perform`. -/
theorem checking (check : Check) (n : Nat) :
    Accord (fun _ => True) R (performChecked check n) (LiveBinding.perform n) :=
  F.accord fun _ q => F.checked check n q

end Frame

/-- What is answered is what anybody would be told. -/
theorem perform_of_checked (run : performChecked check n α q w = some (r, w')) :
    perform n α q w = some (r, w') := (World.frame_persists.checked check n q w r w' run).1

end LiveBinding
