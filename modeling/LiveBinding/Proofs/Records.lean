import LiveBinding.Proofs.Runs

/-! What is made known of a move.

A move on an attribute that may be changed makes one change known, or none: an equal value is
left alone, and where there is no value there is none to drop. The change says what was there
and what is there now, and by the time anybody hears of it, the attribute has the value that
the change says. -/
namespace LiveBinding
variable {self : Performer} {w w' : World} {o : ObjectId} {d : Declared} {name : String}
  {move : Move} {r : Except BindError Unit}

/-- The value of an attribute after a change, if it was `held` before. -/
def Change.replay (held : Option Value) (c : Change) : Option Value :=
  match c.kind with
  | .create | .update => some c.new
  | .delete => none
  | .event => held

/-- A change says what a world is like before it. -/
inductive Change.Tells (w : World) (c : Change) : Prop where
  | create (kind : c.kind = .create) (unset : w.stored? c.owner c.name = none)
      (old : c.old = .null)
  | update (kind : c.kind = .update) (held : w.stored? c.owner c.name = some c.old)
      (differs : w.equal c.old c.new = false)
  | delete (kind : c.kind = .delete) (held : w.stored? c.owner c.name = some c.old)
      (new : c.new = .null)
  | event (kind : c.kind = .event) (old : c.old = .null)

/-- The change that a move makes known and the world that it is about by then. -/
def Move.sends (o : ObjectId) (name : String) (w : World) : Move → Option (Change × World)
  | .assign x =>
    match w.stored? o name with
    | some old =>
      if w.equal old x then none
      else some (⟨.update, o, name, old, x⟩, (w.hold [.object o]).store ⟨o, name⟩ x)
    | none => some (⟨.create, o, name, .null, x⟩, (w.hold [.object o]).store ⟨o, name⟩ x)
  | .emit x => some (⟨.event, o, name, .null, x⟩, w.hold [.object o])
  | .clear =>
    match w.stored? o name with
    | some old => some (⟨.delete, o, name, old, .null⟩, w.erase ⟨o, name⟩)
    | none => none

namespace Move

/-- Nothing is made known exactly of an equal value and of a value that is not there. -/
theorem sends_eq_none : move.sends o name w = none ↔
    (∃ x old, move = .assign x ∧ w.stored? o name = some old ∧ w.equal old x = true) ∨
      move = .clear ∧ w.stored? o name = none := by
  cases move with
  | assign x =>
    cases held : w.stored? o name with
    | none => simp [sends, held]
    | some old => simp [sends, held]
  | emit x => simp [sends]
  | clear => cases held : w.stored? o name <;> simp [sends, held]

/-- The ways in which a change is sent. -/
inductive Sent (o : ObjectId) (name : String) (w : World) : Move → Change → World → Prop where
  | create {x : Value} (unset : w.stored? o name = none) : Sent o name w (.assign x)
      ⟨.create, o, name, .null, x⟩ ((w.hold [.object o]).store ⟨o, name⟩ x)
  | update {x old : Value} (held : w.stored? o name = some old) (differs : w.equal old x = false) :
      Sent o name w (.assign x) ⟨.update, o, name, old, x⟩
        ((w.hold [.object o]).store ⟨o, name⟩ x)
  | event {x : Value} : Sent o name w (.emit x) ⟨.event, o, name, .null, x⟩ (w.hold [.object o])
  | delete {old : Value} (held : w.stored? o name = some old) :
      Sent o name w .clear ⟨.delete, o, name, old, .null⟩ (w.erase ⟨o, name⟩)

variable {c : Change} {u : World}

theorem sent_of_sends (sent : move.sends o name w = some (c, u)) : Sent o name w move c u := by
  cases move with
  | assign x =>
    cases held : w.stored? o name with
    | none =>
      rw [sends, held] at sent
      cases sent
      exact .create held
    | some old =>
      cases same : w.equal old x with
      | true => simp [sends, held, same] at sent
      | false =>
        simp only [sends, held, same, Bool.false_eq_true, if_false] at sent
        cases sent
        exact .update held same
  | emit x =>
    cases sent
    exact .event
  | clear =>
    cases held : w.stored? o name with
    | none => simp [sends, held] at sent
    | some old =>
      rw [sends, held] at sent
      cases sent
      exact .delete held

namespace Sent
variable (sent : Sent o name w move c u)
include sent

theorem about : c.owner = o ∧ c.name = name := by cases sent <;> exact ⟨rfl, rfl⟩

/-- The change says what was there. -/
theorem tells : c.Tells w := by
  cases sent with
  | create unset => exact .create rfl unset rfl
  | update held differs => exact .update rfl held differs
  | event => exact .event rfl rfl
  | delete held => exact .delete rfl held rfl

/-- The change says what is there by the time it is made known. -/
theorem stored (is : w.Attribute ⟨o, name⟩) :
    u.stored? o name = c.replay (w.stored? o name) := by
  have stores (x : Value) : ((w.hold [.object o]).store ⟨o, name⟩ x).stored? o name = some x :=
    (World.valueOf?_store (w := w.hold _) (a := ⟨o, name⟩) is x ⟨o, name⟩).trans (if_pos rfl)
  cases sent with
  | create | update => exact stores _
  | event => rfl
  | delete => exact World.valueOf?_erase is

/-- What is assigned is stored by then. -/
theorem stored_of_assign {x : Value} (is : w.Attribute ⟨o, name⟩) (assigns : move = .assign x) :
    u.stored? o name = some x := by
  rw [sent.stored is]
  subst assigns
  cases sent <;> rfl

theorem persists : w.Persists u := by
  cases sent with
  | create | update =>
    exact (World.Around.persists ⟨_, _, _, rfl⟩).trans (.store (w.hold _) ⟨o, name⟩ _)
  | event => exact World.Around.persists ⟨_, _, _, rfl⟩
  | delete => exact .unset w o name

theorem registries : u.registries = w.registries := by cases sent <;> rfl

theorem engines : u.engines = w.engines := by cases sent <;> rfl

end Sent

/-- The name is an attribute, and no constant unless a change is only emitted. -/
def Allowed (move : Move) (d : Declared) (name : String) : Prop :=
  d.hasAttribute name = true ∧ (d.isConstant name = true → ∃ x, move = .emit x)

theorem Allowed.free (allowed : move.Allowed d name) (other : ∀ x, move ≠ .emit x) :
    d.isConstant name = false := by
  rw [← Bool.not_eq_true]
  intro constant
  obtain ⟨x, same⟩ := allowed.2 constant
  exact other x same

/-- What is assigned with success may be assigned. -/
theorem allowed_of_assign {x : Value} (known : w.declared? o = some d)
    (run : (Move.assign x).run self o name w = some (.ok (), w')) :
    (Move.assign x).Allowed d name := by
  replace run : LiveBinding.assign self o name x w = some (.ok (), w') := run
  unfold LiveBinding.assign at run
  rw [Action.read_bind, (w.declared?_eq_some).1 known] at run
  obtain ⟨last, inner, rfl⟩ := Action.exists_of_holding run
  unfold assignDeclared at inner
  split at inner
  · cases inner
  · next free =>
    split at inner
    · cases inner
    · next has => exact ⟨by simpa using has, fun constant => absurd constant free⟩

/-- A move that is allowed makes known what it sends, if it sends anything. -/
theorem run_eq (self : Performer) (known : w.declared? o = some d) (allowed : move.Allowed d name) :
    ∃ leave : World → World, (∀ u : World, u.Around (leave u)) ∧
      move.run self o name w = match move.sends o name w with
        | none => some (.ok (), w)
        | some (c, u) =>
          (dispatch self o c.kind name c.old c.new u).map fun x => (x.1, leave x.2) := by
  have stored : w.stored? o name = d.values.get? name := by
    rw [World.stored?, known]
    rfl
  have held (a : Action Unit) : Action.holding [.object o] a w =
      (a (w.hold [.object o])).map fun x => (x.1, {x.2 with held := w.held}) := by
    rw [Action.holding, Action.within_apply, World.hold]
    rcases a _ with _ | ⟨_, _⟩ <;> rfl
  have has := allowed.1
  cases move with
  | assign x =>
    refine ⟨fun u => {u with held := w.held}, fun _ => ⟨_, _, _, rfl⟩, ?_⟩
    have free := allowed.free fun _ => Move.noConfusion
    show LiveBinding.assign self o name x w = _
    unfold LiveBinding.assign
    rw [Action.read_bind, (w.declared?_eq_some).1 known]
    dsimp only
    rw [held, sends, stored]
    simp only [assignDeclared, free, has, Bool.not_true, Bool.false_eq_true, if_false]
    cases d.values.get? name with
    | none => rfl
    | some old =>
      dsimp only
      rw [Action.read_bind, w.equal_hold]
      cases w.equal old x <;> rfl
  | emit x =>
    refine ⟨fun u => {u with held := w.held}, fun _ => ⟨_, _, _, rfl⟩, ?_⟩
    have here : w.hasAttribute o name = true := by
      rw [World.hasAttribute, World.hasWithin_of_declared known, has, Bool.and_true]
      exact decide_eq_true (Nat.succ_pos _)
    show LiveBinding.emit self o name x w = _
    unfold LiveBinding.emit
    rw [Action.read_bind, if_pos here, held]
    rfl
  | clear =>
    refine ⟨id, fun _ => ⟨_, _, _, rfl⟩, ?_⟩
    show LiveBinding.clear self o name w = _
    unfold LiveBinding.clear
    rw [Action.read_bind, known]
    dsimp only
    rw [if_neg (by simp [allowed.free fun _ => Move.noConfusion]), sends, stored]
    cases d.values.get? name with
    | none => rfl
    | some old => exact Option.map_id'.symm

/-- The result of a move is that of the ones who hear of it. -/
theorem exists_of_move (known : w.declared? o = some d) (allowed : move.Allowed d name)
    (run : move.run self o name w = some (r, w')) :
    (move.sends o name w = none ∧ r = .ok () ∧ w' = w) ∨
      ∃ c u u', move.sends o name w = some (c, u) ∧
        dispatch self o c.kind name c.old c.new u = some (r, u') ∧ u'.Around w' := by
  obtain ⟨leave, around, same⟩ := run_eq self known allowed
  rw [same] at run
  cases sends : move.sends o name w with
  | none =>
    rw [sends] at run
    cases run
    exact .inl ⟨rfl, rfl, rfl⟩
  | some x =>
    rw [sends] at run
    obtain ⟨⟨r, u'⟩, sent, ⟨⟩⟩ := Option.map_eq_some_iff.1 run
    exact .inr ⟨x.1, x.2, u', rfl, sent, around u'⟩

/-- A move that is not allowed changes nothing. -/
theorem eq_of_refused (known : w.declared? o = some d) (refused : ¬ move.Allowed d name)
    (run : move.run self o name w = some (r, w')) : w' = w := by
  have here : w.hasAttribute o name = d.hasAttribute name := by
    rw [World.hasAttribute, World.hasWithin_of_declared known]
    simp
  cases move with
  | assign x =>
    replace run : LiveBinding.assign self o name x w = some (r, w') := run
    unfold LiveBinding.assign at run
    rw [Action.read_bind, (w.declared?_eq_some).1 known] at run
    obtain ⟨last, inner, rfl⟩ := Action.exists_of_holding run
    unfold assignDeclared at inner
    split at inner
    · cases inner
      rfl
    · next free =>
      have missing : d.hasAttribute name = false := by
        by_contra has
        exact refused ⟨by simpa using has, fun constant => absurd constant free⟩
      rw [if_pos (by rw [missing, Bool.not_false])] at inner
      cases inner
      rfl
  | emit x =>
    have missing : w.hasAttribute o name = false := by
      by_contra has
      rw [here] at has
      exact refused ⟨by simpa using has, fun _ => ⟨x, rfl⟩⟩
    replace run : LiveBinding.emit self o name x w = some (r, w') := run
    unfold LiveBinding.emit at run
    rw [Action.read_bind, missing] at run
    cases run
    rfl
  | clear =>
    replace run : LiveBinding.clear self o name w = some (r, w') := run
    unfold LiveBinding.clear at run
    rw [Action.read_bind, known] at run
    dsimp only at run
    split at run
    · cases run
      rfl
    · next free =>
      have unset : d.values.get? name = none := by
        by_contra stored
        refine refused ⟨?_, fun constant => absurd constant free⟩
        obtain ⟨old, held⟩ := Option.ne_none_iff_exists'.1 stored
        simp [Declared.hasAttribute, Dict.contains, held]
      rw [unset] at run
      cases run
      rfl

/-- A move changes nothing, or makes a change known, and its result is that of the ones who hear
of it. -/
theorem exists_of_run (known : w.declared? o = some d)
    (run : move.run self o name w = some (r, w')) :
    ((move.Allowed d name → move.sends o name w = none) ∧ w' = w) ∨
      ∃ c u u', move.Allowed d name ∧ move.sends o name w = some (c, u) ∧
        dispatch self o c.kind name c.old c.new u = some (r, u') ∧ u'.Around w' := by
  by_cases allowed : move.Allowed d name
  · rcases exists_of_move known allowed run with ⟨none, _, same⟩ | ⟨c, u, u', sends, sent, leave⟩
    · exact .inl ⟨fun _ => none, same⟩
    · exact .inr ⟨c, u, u', allowed, sends, sent, leave⟩
  · exact .inl ⟨fun here => absurd here allowed, eq_of_refused known allowed run⟩

end Move

end LiveBinding
