import LiveBinding.Proofs.Suppression

/-! How deep bodies nest.

The world counts the bodies that are running, and keeps the limit of the innermost engine at
work. Every request leaves both as it found them, with whatever outcome. So it can be told
from the requests that are being answered what the count and the limit are, and a call
runs its body exactly if the one allows it under the other. -/
namespace LiveBinding
variable {α β : Type} {self : Performer} {w w' v : World}

/-! ### Requests leave the context as it was -/

namespace World

/-- What persists, and with it how many bodies are running and which limit is in force. -/
structure Balanced (w w' : World) : Prop extends w.Persists w' where
  depth : w'.depth = w.depth
  limit : w'.limit = w.limit

theorem Quiet.limit (quiet : w.Quiet w') : w'.limit = w.limit :=
  congrArg (·.2.2.2.2.2.2.2.1) quiet.cells

theorem steady_context : Steady fun w w' => w'.depth = w.depth ∧ w'.limit = w.limit where
  trans first next := ⟨next.1.trans first.1, next.2.trans first.2⟩
  quiet quiet := ⟨quiet.depth, quiet.limit⟩

theorem context_guard (w : World) (e : EngineRef) (name : String) :
    (w.guard e name).depth = w.depth ∧ (w.guard e name).limit = w.limit := by
  unfold guard
  split <;> exact ⟨rfl, rfl⟩

theorem context_unguard (w₀ w : World) (e : EngineRef) (name : String) :
    (w₀.unguard w e name).depth = w.depth ∧ (w₀.unguard w e name).limit = w.limit := by
  unfold unguard
  split <;> exact ⟨rfl, rfl⟩

theorem frame_balanced : Frame Balanced where
  trans first next :=
    { toPersists := first.toPersists.trans next.toPersists
      depth := next.depth.trans first.depth
      limit := next.limit.trans first.limit }
  quiet quiet := ⟨.quiet quiet, quiet.depth, quiet.limit⟩
  hold inside := ⟨frame_persists.hold inside.toPersists, inside.depth, inside.limit⟩
  limited inside := ⟨frame_persists.limited inside.toPersists, inside.depth, rfl⟩
  nested {w w'} inside := by
    refine ⟨frame_persists.nested inside.toPersists, ?_, inside.limit⟩
    show w'.depth - 1 = w.depth
    rw [inside.depth, Nat.add_sub_cancel]
  guarded {w w' e name} inside :=
    { toPersists := frame_persists.guarded inside.toPersists
      depth := (w.context_unguard w' e name).1.trans
        (inside.depth.trans (w.context_guard e name).1)
      limit := (w.context_unguard w' e name).2.trans
        (inside.limit.trans (w.context_guard e name).2) }
  change w c := ⟨frame_persists.change w c, rfl, rfl⟩
  view w o t there := ⟨frame_persists.view w o t there, rfl, rfl⟩
  object b w r w' run :=
    have same := steady_context.newObject b (fun _ => ⟨rfl, rfl⟩) (fun _ _ => ⟨rfl, rfl⟩) w r w' run
    ⟨frame_persists.object b w r w' run, same.1, same.2⟩
  store w o d name v known constant declared :=
    ⟨frame_persists.store w o d name v known constant declared, rfl, rfl⟩
  unset w o d name old known constant stored :=
    ⟨frame_persists.unset w o d name old known constant stored, rfl, rfl⟩
  slot w o key free := ⟨frame_persists.slot w o key free, rfl, rfl⟩
  bind o name op f key w r w' run :=
    have same := steady_context.bindAttribute o name op f key (fun _ => ⟨rfl, rfl⟩)
      (fun _ _ => ⟨rfl, rfl⟩) (fun _ _ => ⟨rfl, rfl⟩) (fun _ _ => ⟨rfl, rfl⟩) w r w' run
    ⟨frame_persists.bind o name op f key w r w' run, same.1, same.2⟩
  registry w := ⟨frame_persists.registry w, rfl, rfl⟩
  observe w r name c := ⟨frame_persists.observe w r name c, rfl, rfl⟩
  prune w r name xs found := ⟨frame_persists.prune w r name xs found, rfl, rfl⟩
  tell w x change := ⟨frame_persists.tell w x change, rfl, rfl⟩
  tracer w owner name := ⟨frame_persists.tracer w owner name, rfl, rfl⟩
  trace w t o name := ⟨frame_persists.trace w t o name, rfl, rfl⟩
  drain w t := ⟨frame_persists.drain w t, rfl, rfl⟩
  engine w config := ⟨frame_persists.engine w config, rfl, rfl⟩
  addBinding w e name b := ⟨frame_persists.addBinding w e name b, rfl, rfl⟩
  clear w e := ⟨frame_persists.clear w e, rfl, rfl⟩
  bound balanced := frame_persists.bound balanced.toPersists
  relink w e owner name t bound r w' run :=
    have same := steady_context.relink e owner name t (fun _ _ => ⟨rfl, rfl⟩)
      (fun _ => ⟨rfl, rfl⟩) (fun _ _ => ⟨rfl, rfl⟩) (fun _ _ _ _ => ⟨rfl, rfl⟩)
      (fun _ _ => ⟨rfl, rfl⟩) w r w' run
    ⟨frame_persists.relink w e owner name t bound r w' run, same.1, same.2⟩

end World

/-! ### Who asks -/

/-- What an operation does in one world depends on the answer that its performer gives to a request
in another: it would end differently if that one were answered differently. -/
def Consults (a : Performer → Action α) (self : Performer) (w : World) (q : Request β) (v : World) :
    Prop :=
  ∃ other : Performer,
    (∀ γ (p : Request γ) u, other γ p u ≠ self γ p u →
      (⟨γ, p⟩ : (γ : Type) × Request γ) = ⟨β, q⟩ ∧ u = v) ∧
    a other w ≠ a self w

/-- A request is asked by the body of a function that was called as deep as the world is. -/
def BodyAsks (self : Performer) (w : World) (q : Request β) (v : World) : Prop :=
  ∃ f args s u, u.depth = w.depth ∧ Consults (fun p => callFunction p f args s) self u q v

/-- A request is asked in the course of a read or a write of an engine with that limit. -/
def EngineAsks (self : Performer) (limit : Nat) (q : Request β) (v : World) : Prop :=
  ∃ e owner name u, (u.engine e).config.maxDepth = limit ∧
    (Consults (fun p => Engine.read p e owner name) self u q v ∨
      ∃ change, Consults (fun p => Engine.write p e owner name change) self u q v)

/-- How many bodies are running around a request that is asked in the course of another. -/
inductive Deeper (self : Performer) (w : World) (q : Request β) (v : World) (bodies : Nat) :
    Nat → Prop where
  | body (asks : BodyAsks self w q v) : Deeper self w q v bodies (bodies + 1)
  | same (other : ¬ BodyAsks self w q v) : Deeper self w q v bodies bodies

/-- The limit of the innermost engine that reads or writes around such a request, if there is
one. -/
inductive Stricter (self : Performer) (q : Request β) (v : World) (limit : Option Nat) :
    Option Nat → Prop where
  | engine {own : Nat} (asks : EngineAsks self own q v) : Stricter self q v limit (some own)
  | same (other : ∀ own, ¬ EngineAsks self own q v) : Stricter self q v limit limit

/-- What is asked while a request of the host is answered, and what is asked to answer that, and so
on: how many bodies are running meanwhile, and the limit of the innermost engine that is
reading or writing. -/
inductive Underway : Nat → Option Nat → Nat → {α : Type} → Request α → World → Prop where
  | host {α : Type} {n : Nat} {q : Request α} {w : World} (reached : Reachable w) :
      Underway 0 none n q w
  | asked {α β : Type} {bodies bodies' : Nat} {limit limit' : Option Nat} {n : Nat}
      {q : Request α} {w : World} {q' : Request β} {v : World}
      (outer : Underway bodies limit (n + 1) q w) (asks : Asks (perform n) q w q' v)
      (deeper : Deeper (perform n) w q' v bodies bodies')
      (stricter : Stricter (perform n) q' v limit limit') : Underway bodies' limit' n q' v

section
variable {q : Request α} {q' : Request β}
  (answers : ∀ γ (p : Request γ), (self γ p).Keeps World.Balanced)
include answers

/-- A body asks one level deeper than it was called. -/
theorem depth_of_body (asks : BodyAsks self w q' v) : v.depth = w.depth + 1 := by
  obtain ⟨f, args, s, u, level, other, only, differs⟩ := asks
  by_contra elsewhere
  have same : SameAnswers (fun x => x.depth = w.depth + 1) World.Balanced self other :=
    sameAnswers_of_apart World.frame_balanced answers only
      (fun here balanced => balanced.depth.trans here) (fun _ here => here) elsewhere
  have entered : u.depth + 1 = w.depth + 1 := congrArg (· + 1) level
  exact differs (Action.RefinesAt.antisymm (same.symm.answering.callFunction_at f args s entered)
    (same.answering.callFunction_at f args s entered))

/-- An engine that reads or writes has its own limit in force. -/
theorem limit_of_engine {own : Nat} (asks : EngineAsks self own q' v) : v.limit = some own := by
  have calling {other : Performer}
      (only : ∀ γ (p : Request γ) u, other γ p u ≠ self γ p u →
        (⟨γ, p⟩ : (γ : Type) × Request γ) = ⟨β, q'⟩ ∧ u = v) (elsewhere : v.limit ≠ some own) :
      Calling (·.limit = some own) World.Balanced self other ∧
        Calling (·.limit = some own) World.Balanced other self := by
    have same : SameAnswers (·.limit = some own) World.Balanced self other :=
      sameAnswers_of_apart World.frame_balanced answers only
        (fun here balanced => balanced.limit.trans here) (fun _ here => here) elsewhere
    exact ⟨same.answering.calling id, same.symm.answering.calling id⟩
  obtain ⟨e, owner, name, u, rfl, reads | ⟨change, writes⟩⟩ := asks
  · obtain ⟨other, only, differs⟩ := reads
    by_contra elsewhere
    obtain ⟨here, there⟩ := calling only elsewhere
    exact differs (Action.RefinesAt.antisymm (there.readBinding_at e owner name rfl)
      (here.readBinding_at e owner name rfl))
  · obtain ⟨other, only, differs⟩ := writes
    by_contra elsewhere
    obtain ⟨here, there⟩ := calling only elsewhere
    exact differs (Action.RefinesAt.antisymm (there.writeBinding_at e owner name change rfl)
      (here.writeBinding_at e owner name change rfl))

/-- What no body asks is asked as deep as the request that it serves. -/
theorem depth_of_asks (asks : Asks self q w q' v) (other : ¬ BodyAsks self w q' v) :
    v.depth = w.depth := by
  obtain ⟨performer, only, differs⟩ := asks
  by_contra elsewhere
  have answers' : SameAnswers (·.depth = w.depth) World.Balanced self performer :=
    sameAnswers_of_apart World.frame_balanced answers only
      (fun here balanced => balanced.depth.trans here) (fun _ here => here) elsewhere
  have called (f : FunctionRef) (args : Arguments) (s : Scope) (u : World)
      (level : u.depth = w.depth) :
      callFunction self f args s u = callFunction performer f args s u := by
    by_contra apart
    exact other ⟨f, args, s, u, level, performer, only, Ne.symm apart⟩
  have keeps (f : FunctionRef) (args : Arguments) (s : Scope) :
      (callFunction self f args s).Keeps World.Balanced :=
    ((World.frame_balanced.itself answers).callFunction f args s).keeps
  have accord {one two : Performer} (H : SameAnswers (·.depth = w.depth) World.Balanced one two)
      (calls : ∀ f args s, (callFunction one f args s).RefinesOn (·.depth = w.depth) World.Balanced
        (callFunction two f args s)) : Accord (·.depth = w.depth) World.Balanced one two := by
    have calling : Calling (·.depth = w.depth) World.Balanced one two :=
      {H with callFunction := calls}
    have limited {u : World} (limit : Option Nat) (level : u.depth = w.depth) :
        ({u with limit := limit} : World).depth = w.depth := level
    exact H.answering.accord calling limited (H.answering.updated_of_guarded World.frame_balanced
      (fun e owner name _ level => calling.readBinding_at e owner name level)
      fun e name level => (World.context_guard _ e name).1.trans level)
  have there := accord answers' fun f args s u level => .of_eq (called f args s u level)
    (keeps f args s u)
  have back := accord answers'.symm fun f args s u level =>
    .of_eq (called f args s u level).symm (.congr (called f args s u level).symm (keeps f args s u))
  exact differs (Action.RefinesAt.antisymm (back.respond World.frame_balanced q w rfl)
    (there.respond World.frame_balanced q w rfl))

/-- What no engine asks is asked under the limit that is in force for the request that it
serves. -/
theorem limit_of_asks (asks : Asks self q w q' v) (other : ∀ own, ¬ EngineAsks self own q' v) :
    v.limit = w.limit := by
  obtain ⟨performer, only, differs⟩ := asks
  by_contra elsewhere
  have answers' : SameAnswers (·.limit = w.limit) World.Balanced self performer :=
    sameAnswers_of_apart World.frame_balanced answers only
      (fun here balanced => balanced.limit.trans here) (fun _ here => here) elsewhere
  have itself := World.frame_balanced.itself answers
  have reads (e : EngineRef) (owner : ObjectId) (name : String) (u : World) :
      Engine.read self e owner name u = Engine.read performer e owner name u := by
    by_contra apart
    exact other _ ⟨e, owner, name, u, rfl, .inl ⟨performer, only, Ne.symm apart⟩⟩
  have writes (e : EngineRef) (owner : ObjectId) (name : String) (change : ObjectId) (u : World) :
      Engine.write self e owner name change u = Engine.write performer e owner name change u := by
    by_contra apart
    exact other _ ⟨e, owner, name, u, rfl, .inr ⟨change, performer, only, Ne.symm apart⟩⟩
  have accord {one two : Performer} (H : SameAnswers (·.limit = w.limit) World.Balanced one two)
      (reads : ∀ e owner name, (Engine.read one e owner name).Refines World.Balanced
        (Engine.read two e owner name))
      (writes : ∀ e owner name change, (Engine.write one e owner name change).Refines World.Balanced
        (Engine.write two e owner name change)) :
      Accord (·.limit = w.limit) World.Balanced one two :=
    { H.answering, H.answering.calling id with
      readBinding := fun e owner name u _ => reads e owner name u
      writeBinding := fun e owner name change u _ => writes e owner name change u
      updated := H.answering.updated_of_guarded World.frame_balanced
        (fun e owner name u _ => reads e owner name u)
        fun e name same => (World.context_guard _ e name).2.trans same }
  have there := accord answers'
    (fun e owner name u => .of_eq (reads e owner name u)
      ((itself.readBinding e owner name).keeps u))
    fun e owner name change u =>
      .of_eq (writes e owner name change u) ((itself.writeBinding e owner name change).keeps u)
  have back := accord answers'.symm
    (fun e owner name u => .of_eq (reads e owner name u).symm
      (.congr (reads e owner name u).symm ((itself.readBinding e owner name).keeps u)))
    fun e owner name change u => .of_eq (writes e owner name change u).symm
      (.congr (writes e owner name change u).symm
        ((itself.writeBinding e owner name change).keeps u))
  exact differs (Action.RefinesAt.antisymm (back.respond World.frame_balanced q w rfl)
    (there.respond World.frame_balanced q w rfl))

end

/-- The count of the world is right, and so is its limit. -/
theorem context_of_underway {bodies n : Nat} {limit : Option Nat} {q : Request α}
    (underway : Underway bodies limit n q w) : w.depth = bodies ∧ w.limit = limit := by
  induction underway with
  | host reached =>
    exact reached.invariant World.frame_balanced (P := fun w => w.depth = 0 ∧ w.limit = none)
      (fun _ => ⟨rfl, rfl⟩)
      (fun balanced here => ⟨balanced.depth.trans here.1, balanced.limit.trans here.2⟩)
      (fun _ _ here => here) fun here => here
  | @asked α β bodies bodies' limit limit' n q w q' v outer asks deeper stricter ih =>
    have answers (γ : Type) (p : Request γ) := World.frame_balanced.perform n p
    refine ⟨?_, ?_⟩
    · cases deeper with
      | body asks => rw [depth_of_body answers asks, ih.1]
      | same other => rw [depth_of_asks answers asks other, ih.1]
    · cases stricter with
      | engine asks => exact limit_of_engine answers asks
      | same other => rw [limit_of_asks answers asks other, ih.2]

/-- **The context is balanced, and nesting is bounded.** Whatever a request comes to, it leaves the
count of running bodies, the limit in force and the guards of every engine as it found them.
Meanwhile, in the world in which anything is asked, the count is the number of bodies that are
running around it, and the limit is that of the innermost engine that reads or writes, if there
is one. A call runs its body exactly if one more body is within the limit in force.
Otherwise it fails, with the owner, the function and the limit, and nothing is run. -/
theorem context_balanced_and_nesting_bounded :
    (∀ (n : Nat) (α : Type) (q : Request α) (w w' : World) (r : Except BindError α),
      perform n α q w = some (r, w') → w'.depth = w.depth ∧ w'.limit = w.limit ∧
        ∀ e, (w'.engine e).guards = (w.engine e).guards) ∧
    (∀ (bodies : Nat) (limit : Option Nat) (n : Nat) (α : Type) (q : Request α) (w : World),
      Underway bodies limit n q w → w.depth = bodies ∧ w.limit = limit ∧
        w.limitInForce = limit.getD (w.config.getD (.ofVariables w.hostVariables)).maxDepth) ∧
    ∀ (n : Nat) (f : FunctionRef) (args : Arguments) (s : Scope) (w : World),
      callFunction (perform n) f args s w =
        if w.depth + 1 ≤ w.limitInForce then
          Action.nested (Action.holding (.function f :: s.handles ++ args.handles)
            (runCode (perform n) f s args)) (w.called f args s)
        else
          some (.error (.recursionLimit (w.describe s.owner) (w.functionName f) w.limitInForce),
            w.called f args s) := by
  refine ⟨?_, ?_, ?_⟩
  · intro n α q w w' r run
    have balanced := World.frame_balanced.perform n q w r w' run
    exact ⟨balanced.depth, balanced.limit, balanced.guards⟩
  · intro bodies limit n α q w underway
    obtain ⟨depth, same⟩ := context_of_underway underway
    exact ⟨depth, same, by rw [World.limitInForce, same]⟩
  · intro n f args s w
    exact callFunction_eq (perform n) f args s w

namespace thirdBody

/-- Reads one attribute by its name. -/
def code (name : String) (s : Scope) (_ : Arguments) : Program Value := .request (.getName s name)

/-- `a` is `b`, `b` is `c`, and the engine lets two bodies run at once. -/
def session : Program Unit := do
  let item : Blueprint :=
    { typeName := "Item", parent := none, attributes := .empty, members := []
      constants := .empty, storage := .empty, config := some {maxDepth := 2} }
  let o ← .request (.newObject item)
  .request (.keep "item" (.object o))
  let a ← .request (.newFunction "a" ⟨.empty, .empty⟩ (code "b"))
  .request (.bind o "a" .simple a (.given 0))
  let b ← .request (.newFunction "b" ⟨.empty, .empty⟩ (code "c"))
  .request (.bind o "b" .simple b (.given 1))
  let c ← .request (.newFunction "c" ⟨.empty, .empty⟩ fun _ _ => return .int 1)
  .request (.bind o "c" .simple c (.given 2))

def start : World := (session.run (perform 12) (.initial #[])).elim (.initial #[]) Prod.snd

theorem reachable : Reachable start := (Reachable.start #[]).final 12 session

/-- The world after `a` has been asked for. -/
def asked : World := (perform 12 Value (.getAttr (.object ⟨0⟩) "a") start).elim start Prod.snd

theorem refuses : (perform 12 Value (.getAttr (.object ⟨0⟩) "a") start).map Prod.fst =
    some (.error (.recursionLimit (start.describe ⟨0⟩) "c" 2)) := by
  decide +kernel

/-- The third body is refused, and nothing is left of the two that ran. -/
theorem leaves_no_trace :
    (perform 12 Value (.getAttr (.object ⟨0⟩) "a") start).map Prod.fst =
      some (.error (.recursionLimit (start.describe ⟨0⟩) "c" 2)) ∧
    start.depth = 0 ∧ asked.depth = 0 ∧ asked.limit = none ∧
    ∀ e, (asked.engine e).guards = (start.engine e).guards := by
  obtain ⟨balanced, counted, _⟩ := context_balanced_and_nesting_bounded
  obtain ⟨depth, limit, _⟩ := counted 0 none 12 Value (.getAttr (.object ⟨0⟩) "a") start
    (.host reachable)
  have ended := refuses
  rw [Option.map_eq_some_iff] at ended
  obtain ⟨⟨r, w'⟩, run, _⟩ := ended
  have same : asked = w' := by rw [asked, run, Option.elim_some]
  obtain ⟨level, bound, guards⟩ := balanced 12 Value _ start w' r run
  rw [same, level, bound, depth, limit]
  exact ⟨refuses, rfl, rfl, rfl, guards⟩

end thirdBody

end LiveBinding
