import LiveBinding.Proofs.Frame

/-! Where an action leads.

An action that is given enough nested steps ends, always in the same way; `Leads` says
that it does, and what holds then of its result and of the world it leaves. Each piece of
an operation has a rule, so a statement about an operation is proved by going through it
from the front. -/
namespace LiveBinding
variable {α β : Type} {w w' : World}

/-- From some number of nested steps on, the action ends this way. -/
def Ends (a : Performer → Action α) (w : World) (r : Except BindError α) (w' : World) : Prop :=
  ∃ m, ∀ n, m ≤ n → a (perform n) w = some (r, w')

/-- With enough nested steps the action ends, and then this holds. -/
def Leads (w : World) (a : Performer → Action α) (Q : Except BindError α → World → Prop) :
    Prop :=
  ∃ r w', Ends a w r w' ∧ Q r w'

theorem Ends.leads {a : Performer → Action α} {r : Except BindError α}
    {Q : Except BindError α → World → Prop} (ends : Ends a w r w') (here : Q r w') :
    Leads w a Q := ⟨r, w', ends, here⟩

/-- There is only one way to end. -/
theorem Ends.unique {a : Performer → Action α} {r s : Except BindError α} {w₁ w₂ : World}
    (first : Ends a w r w₁) (second : Ends a w s w₂) : r = s ∧ w₁ = w₂ := by
  obtain ⟨m, first⟩ := first
  obtain ⟨n, second⟩ := second
  have same := (first (max m n) (by omega)).symm.trans (second (max m n) (by omega))
  cases same
  exact ⟨rfl, rfl⟩

/-- A run ends like this if more nested steps do not make another run of it. -/
theorem Ends.of_run {R : World → World → Prop} {a : Performer → Action α} {n : Nat}
    {r s : Except BindError α} {v : World} (ends : Ends a w r w')
    (more : ∀ m, n ≤ m → (a (perform n)).RefinesAt R w (a (perform m)))
    (run : a (perform n) w = some (s, v)) : s = r ∧ v = w' := by
  obtain ⟨m, ends⟩ := ends
  have same := (ends (max m n) (by omega)).symm.trans (more (max m n) (by omega) s v run).1
  cases same
  exact ⟨rfl, rfl⟩

namespace Leads
variable {a : Performer → Action α} {Q : Except BindError α → World → Prop}

theorem of_eq {r : Except BindError α} (run : ∀ self, a self w = some (r, w')) (here : Q r w') :
    Leads w a Q := ⟨r, w', ⟨0, fun n _ => run (perform n)⟩, here⟩

theorem mono {Q' : Except BindError α → World → Prop} (leads : Leads w a Q)
    (weaker : ∀ r w', Q r w' → Q' r w') : Leads w a Q' := by
  obtain ⟨r, w', ends, here⟩ := leads
  exact ⟨r, w', ends, weaker r w' here⟩

/-- Goes on from a world that an action reaches at once. -/
theorem step {b : Performer → Action α} (same : ∀ self, a self w = b self w')
    (leads : Leads w' b Q) : Leads w a Q := by
  obtain ⟨r, w'', ⟨m, ends⟩, here⟩ := leads
  exact ⟨r, w'', ⟨m, fun n enough => (same _).trans (ends n enough)⟩, here⟩

theorem congr {b : Performer → Action α} (same : ∀ self, a self w = b self w)
    (leads : Leads w b Q) : Leads w a Q := step same leads

theorem ends (leads : Leads w a Q) : ∃ r w', Ends a w r w' ∧ Q r w' := leads

/-- What every run of an action keeps may be used at its end. -/
theorem keeps {R : World → World → Prop} (keeps : ∀ n, Action.KeepsAt R w (a (perform n)))
    (leads : Leads w a Q) : Leads w a fun r w' => Q r w' ∧ R w w' := by
  obtain ⟨r, w', ⟨m, ends⟩, here⟩ := leads
  exact ⟨r, w', ⟨m, ends⟩, here, keeps m r w' (ends m (Nat.le_refl m))⟩

/-! ### Sequencing -/

theorem pure {x : α} (here : Q (.ok x) w) : Leads w (fun _ => Pure.pure x) Q :=
  of_eq (fun _ => rfl) here

theorem throw {e : BindError} (here : Q (.error e) w) : Leads w (fun _ => Action.throw e) Q :=
  of_eq (fun _ => rfl) here

/-- A failure skips the rest. -/
theorem bind {f : Performer → α → Action β} {Q : Except BindError β → World → Prop}
    (leads : Leads w a fun r w' => match r with
      | .ok x => Leads w' (fun self => f self x) Q
      | .error e => Q (.error e) w') : Leads w (fun self => a self >>= f self) Q := by
  obtain ⟨r, w', ⟨m, ends⟩, next⟩ := leads
  cases r with
  | error e =>
    refine ⟨.error e, w', ⟨m, fun n enough => ?_⟩, next⟩
    show (a (perform n) >>= f (perform n)) w = _
    rw [Action.bind_apply, ends n enough]
  | ok x =>
    obtain ⟨r, w'', ⟨k, ends'⟩, here⟩ := next
    refine ⟨r, w'', ⟨max m k, fun n enough => ?_⟩, here⟩
    show (a (perform n) >>= f (perform n)) w = _
    rw [Action.bind_apply, ends n (by omega)]
    exact ends' n (by omega)

/-- Goes on after a success. -/
theorem seq {f : Performer → α → Action β} {Q : Except BindError β → World → Prop}
    (leads : Leads w a fun r w' => ∃ x, r = .ok x ∧ Leads w' (fun self => f self x) Q) :
    Leads w (fun self => a self >>= f self) Q := by
  refine bind (leads.mono fun r w' next => ?_)
  obtain ⟨x, rfl, next⟩ := next
  exact next

/-- Goes on from a success that is known. -/
theorem after {f : Performer → α → Action β} {Q : Except BindError β → World → Prop} {x : α}
    (run : ∀ self, a self w = some (.ok x, w')) (leads : Leads w' (fun self => f self x) Q) :
    Leads w (fun self => a self >>= f self) Q := seq (of_eq run ⟨x, rfl, leads⟩)

theorem read {f : World → β} {g : Performer → β → Action α}
    (next : Leads w (fun self => g self (f w)) Q) :
    Leads w (fun self => Action.read f >>= g self) Q := step (fun _ => rfl) next

theorem update {f : World → World} {g : Performer → Unit → Action α}
    (next : Leads (f w) (fun self => g self ()) Q) :
    Leads w (fun self => Action.update f >>= g self) Q := step (fun _ => rfl) next

theorem add {f : World → World × β} {g : Performer → β → Action α}
    (next : Leads (f w).1 (fun self => g self (f w).2) Q) :
    Leads w (fun self => Action.add f >>= g self) Q := step (fun _ => rfl) next

theorem log {e : LogEntry} {g : Performer → Unit → Action α}
    (next : Leads (w.addEntry e) (fun self => g self ()) Q) :
    Leads w (fun self => Action.log e >>= g self) Q := step (fun _ => rfl) next

theorem attempt {Q : Except BindError (Except BindError α) → World → Prop}
    (leads : Leads w a fun r w' => Q (.ok r) w') : Leads w (fun self => (a self).attempt) Q := by
  obtain ⟨r, w', ⟨m, ends⟩, here⟩ := leads
  refine ⟨.ok r, w', ⟨m, fun n enough => ?_⟩, here⟩
  show (a (perform n)).attempt w = _
  rw [Action.attempt_apply, ends n enough]

theorem mapError {f : BindError → BindError} (leads : Leads w a fun r w' => Q (r.mapError f) w') :
    Leads w (fun self => (a self).mapError f) Q := by
  obtain ⟨r, w', ⟨m, ends⟩, here⟩ := leads
  refine ⟨r.mapError f, w', ⟨m, fun n enough => ?_⟩, here⟩
  show (a (perform n)).mapError f w = _
  unfold Action.mapError
  simp only [ends n enough]
  cases r <;> rfl

/-! ### Brackets -/

theorem within {enter : World → World} {leave : World → World → World}
    (leads : Leads (enter w) a fun r w' => Q r (leave w w')) :
    Leads w (fun self => (a self).within enter leave) Q := by
  obtain ⟨r, w', ⟨m, ends⟩, here⟩ := leads
  refine ⟨r, leave w w', ⟨m, fun n enough => ?_⟩, here⟩
  show (a (perform n)).within enter leave w = _
  rw [Action.within_apply, ends n enough]

theorem holding {hs : List Handle}
    (leads : Leads {w with held := hs ++ w.held} a fun r w' => Q r {w' with held := w.held}) :
    Leads w (fun self => Action.holding hs (a self)) Q := within leads

theorem underLimit {limit : Nat}
    (leads : Leads {w with limit := some limit} a fun r w' => Q r {w' with limit := w.limit}) :
    Leads w (fun self => Action.underLimit limit (a self)) Q := within leads

theorem nested (leads : Leads {w with depth := w.depth + 1} a
    fun r w' => Q r {w' with depth := w'.depth - 1}) :
    Leads w (fun self => Action.nested (a self)) Q := within leads

/-! ### Requests and programs -/

/-- A request needs one nested step more than its answer. -/
theorem request {q : Request α} (leads : Leads w (fun self => respond self α q) Q) :
    Leads w (fun self => self α q) Q := by
  obtain ⟨r, w', ⟨m, ends⟩, here⟩ := leads
  refine ⟨r, w', ⟨m + 1, fun n enough => ?_⟩, here⟩
  obtain ⟨k, rfl⟩ : ∃ k, n = k + 1 := ⟨n - 1, by omega⟩
  exact ends k (by omega)

/-- What answers a request with enough nested steps answers it as well in place. -/
theorem respond {q : Request α} (leads : Leads w (fun self => self α q) Q) :
    Leads w (fun self => LiveBinding.respond self α q) Q := by
  obtain ⟨r, w', ⟨m, ends⟩, here⟩ := leads
  exact ⟨r, w', ⟨m, fun n enough => ends (n + 1) (by omega)⟩, here⟩

theorem done {r : Except BindError α} (here : Q r w) :
    Leads w (fun self => (Program.done r).run self) Q := of_eq (fun _ => rfl) here

theorem ask {q : Request β} {k : Except BindError β → Program α}
    (leads : Leads w (fun self => self β q) fun r w' => Leads w' (fun self => (k r).run self) Q) :
    Leads w (fun self => (Program.ask q k).run self) Q := by
  obtain ⟨r, w', ⟨m, ends⟩, r', w'', ⟨n, ends'⟩, here⟩ := leads
  refine ⟨r', w'', ⟨max m n, fun i enough => ?_⟩, here⟩
  have first : perform i β q w = some (r, w') := ends i (by omega)
  show (Program.ask q k).run (perform i) w = _
  simp only [Program.run, first]
  exact ends' i (by omega)

/-- A query is answered from the world as it is. -/
theorem query {q : Query β} {k : Except BindError β → Program α}
    (leads : Leads w (fun self => (k (.ok (q.answer w))).run self) Q) :
    Leads w (fun self => (Program.ask (.query q) k).run self) Q :=
  ask (request (of_eq (fun _ => rfl) leads))

end Leads

end LiveBinding
