import LiveBinding.Proofs.Moves

/-! Every request stays inside every frame.

One lemma an operation, in the order in which operations are made of each other. Work
that an operation asks a performer for is assumed to stay inside; `perform` has no other
performer than itself with fewer steps.

An operation knows of a performer no more than the answers it gets. So a performer that answers all
that another one answers leads it to the same end, even if it does so for no other requests than
those that are asked. The lemmas say so along the way: what they compare are runs of one
operation with two performers. -/
namespace LiveBinding

namespace Steady
variable {R : World → World → Prop} (F : Steady R) {α : Type}
include F

/-! ### Operations that ask nobody -/

theorem addList (items : List Value) : (Action.add (·.addList items)).Keeps R :=
  F.add fun _ => ⟨rfl, id, id, id, Nat.le_refl _⟩

theorem addMap (entries : Dict String Value) : (Action.add (·.addMap entries)).Keeps R :=
  F.add fun _ => ⟨rfl, id, id, id, Nat.le_refl _⟩

theorem addLayer (locals : Dict String Value) : (Action.add (·.addLayer locals)).Keeps R :=
  F.add fun w => w.quiet_addLayer locals

theorem scope (h : Handler) (owner : ObjectId) : (h.scope owner).Keeps R := by
  refine F.seq (F.read _) fun slot => ?_
  cases slot with
  | some l => exact F.seq (F.pure l) fun l => F.seq (F.read _) fun _ => F.pure _
  | none => exact F.seq (F.addLayer _) fun l => F.seq (F.read _) fun _ => F.pure _

theorem settle (policy : FailurePolicy) (default : α) (owner : ObjectId) (name : String)
    (r : Except BindError α) : (Engine.settle policy default owner name r).Keeps R := by
  cases r with
  | ok a => exact F.pure a
  | error e =>
    cases policy with
    | propagate => exact F.throw e
    | logAndContinue => exact F.seq (F.log _) fun _ => F.pure default

theorem localSlot (o : ObjectId) (key : ScopeKey)
    (slot : ∀ w, w.localStorage? o key = none →
      R w ((w.addLayer .empty).1.modifyDeclared o fun d =>
        {d with storage := d.storage.insert key ⟨w.layers.size⟩})) :
    (LiveBinding.localSlot o key).Keeps R := by
  intro w
  refine seq_read ?_
  split
  · next l _ => exact F.pure l w
  · next free => exact .of_eq rfl (slot w free)

theorem reserved (s : Scope) (r : Reserved)
    (view : ∀ w, w.has s.owner = true → R w (w.addObject (.view s.owner s.tracer)).1) :
    (reservedValue s r).Keeps R := by
  cases r with
  | self => exact F.pure _
  | change => exact F.pure _
  | tracer => exact F.pure _
  | nonlocals =>
    refine fun w => seq_read ?_
    split
    · next there => exact F.seq_add (view w there) (F.pure _ _)
    · exact F.pure none w

theorem storeLocal (l : LayerRef) (name : String) (v : Value) :
    (LiveBinding.storeLocal l name v).Keeps R :=
  F.update fun w => w.quiet_modifyLayer l _

theorem delName (s : Scope) (name : String) : (LiveBinding.delName s name).Keeps R := by
  refine F.seq (F.read _) fun there => ?_
  split
  · exact F.update fun w => w.quiet_modifyLayer _ _
  · exact F.throw _

theorem setItem (v key x : Value) : (LiveBinding.setItem v key x).Keeps R := by
  intro w
  cases done : w.setItem v key x with
  | error e => exact F.of_eq (r := .error e) (by simp only [LiveBinding.setItem, done])
  | ok w' =>
    have ends : LiveBinding.setItem v key x w = some (.ok (), w') := by
      simp only [LiveBinding.setItem, done]
    refine .of_eq ends (F.quiet ?_)
    unfold World.setItem at done
    split at done <;> try split at done
    all_goals
      cases done
      try exact ⟨rfl, id, id, id, Nat.le_refl _⟩

theorem spend : LiveBinding.spend.Keeps R := by
  intro w
  cases left : w.desk.allowance with
  | zero => exact F.of_eq (r := .ok false) (by simp only [LiveBinding.spend, left])
  | succ n =>
    have ends : LiveBinding.spend w =
        some (.ok true, w.modifyDesk fun d => {d with allowance := n}) := by
      simp only [LiveBinding.spend, left]
    exact .of_eq ends (F.quiet ⟨rfl, id, id, id, Nat.le_refl _⟩)

theorem freshKey :
    (Action.add fun w => ({w with freshKeys := w.freshKeys + 1}, .fresh w.freshKeys) :
      Action ScopeKey).Keeps R :=
  F.add fun _ => ⟨rfl, id, id, id, Nat.le_refl _⟩

theorem setGlobalConfig (c : Config) : (do
    let _ ← LiveBinding.globalConfig
    Action.update fun w => {w with config := some c}).Keeps R :=
  F.seq F.globalConfig fun _ => F.update fun _ => ⟨rfl, id, id, id, Nat.le_refl _⟩

end Steady

namespace Border
open Steady
variable {R : World → World → Prop} (F : Border R)
include F

theorem newTracer (owner : ObjectId) (name : String) :
    (Action.add (·.addTracer (.start owner name))).Keeps R :=
  fun w => .of_eq rfl (F.tracer w owner name)

theorem record (t : TracerRef) (o : ObjectId) (name : String) :
    (LiveBinding.record t o name).Keeps R :=
  fun w => .of_eq rfl (F.trace w t o name)

theorem finalize (t : TracerRef) : (LiveBinding.finalize t).Keeps R :=
  F.seq (F.read _) fun _ w => F.seq_update (F.drain w t) (F.pure _ _)

end Border

/-- Worlds of a kind, which neither the steps of a frame nor holding on to things lead out of. -/
structure Domain (A : World → Prop) (R : World → World → Prop) : Prop where
  border : Border R
  kept : ∀ {w w'}, A w → R w w' → A w'
  hold : ∀ {w} hs, A w → A (w.hold hs)

/-- The second performer answers whatever the first answers in worlds of a kind. -/
structure Answering (A : World → Prop) (R : World → World → Prop) (one other : Performer) : Prop
    extends Domain A R where
  asked : ∀ (β : Type) (q : Request β), (one β q).RefinesOn A R (other β q)

/-- Functions that are called in worlds of a kind come to the same with the second performer as with
the first. -/
structure Calling (A : World → Prop) (R : World → World → Prop) (one other : Performer) : Prop
    extends Domain A R where
  callFunction : ∀ f args s,
    (LiveBinding.callFunction one f args s).RefinesOn A R (LiveBinding.callFunction other f args s)

/-- Operations that begin in worlds of a kind come to the same with the second performer as with the
first. The second need not answer what is asked in other worlds, except by the bodies of
functions, by engines that read or write, and at the end of updates. -/
structure Accord (A : World → Prop) (R : World → World → Prop) (one other : Performer) : Prop
    extends Answering A R one other, Calling A R one other where
  readBinding : ∀ e owner name,
    (Engine.read one e owner name).RefinesOn A R (Engine.read other e owner name)
  writeBinding : ∀ e owner name change,
    (Engine.write one e owner name change).RefinesOn A R (Engine.write other e owner name change)
  updated : ∀ {e o name x u w}, A u → Engine.read one e o name u = some (.ok (some x), w) →
    (Action.guarding e name (one Unit (.setAttr (.object o) name x))).RefinesAt R
      (w.addEntry (.bindingUpdated o name (w.text x)))
      (Action.guarding e name (other Unit (.setAttr (.object o) name x)))

/-- Performers that give the same answers to what is asked in worlds of a kind. -/
structure SameAnswers (A : World → Prop) (R : World → World → Prop) (one other : Performer) : Prop
    extends Domain A R where
  same : ∀ {β : Type} (q : Request β) {w}, A w → one β q w = other β q w
  keeps : ∀ {β : Type} (q : Request β) {w}, A w → (one β q).KeepsAt R w

namespace SameAnswers
variable {A : World → Prop} {R : World → World → Prop} {one other : Performer}
  (H : SameAnswers A R one other)
include H

theorem symm : SameAnswers A R other one :=
  { H with
    same := fun q _ here => (H.same q here).symm
    keeps := fun q _ here => .congr (H.same q here).symm (H.keeps q here) }

theorem answering : Answering A R one other :=
  { H with asked := fun _ q _ here => .of_eq (H.same q here) (H.keeps q here) }

end SameAnswers

namespace Domain
open Steady
variable {A : World → Prop} {R : World → World → Prop} (H : Domain A R) {α β : Type} {w : World}

/-! ### Sequencing and brackets -/

section
variable {a b : Action α} {f g : α → Action β}

theorem pure (H : Domain A R) (x : α) :
    (Pure.pure x : Action α).RefinesOn A R (Pure.pure x) := (H.border.pure x).refinesOn

theorem throw (H : Domain A R) (e : BindError) :
    (Action.throw e : Action α).RefinesOn A R (Action.throw e) := (H.border.throw e).refinesOn

theorem log (H : Domain A R) (e : LogEntry) :
    (Action.log e).RefinesOn A R (Action.log e) := (H.border.log e).refinesOn

omit H in
/-- Goes on with what has been read. -/
theorem reading {f : World → α} {g h : α → Action β} (next : ∀ x, (g x).RefinesOn A R (h x)) :
    (Action.read f >>= g).RefinesOn A R (Action.read f >>= h) := fun w here => next _ w here

omit H in
theorem seq_read {f : World → α} {g h : α → Action β}
    (next : (g (f w)).RefinesAt R w (h (f w))) :
    (Action.read f >>= g).RefinesAt R w (Action.read f >>= h) := next

include H

theorem seq_at (here : A w) (first : a.RefinesAt R w b)
    (next : ∀ x w', A w' → a w = some (.ok x, w') → (f x).RefinesAt R w' (g x)) :
    (a >>= f).RefinesAt R w (b >>= g) :=
  H.border.seq_refines first fun x w' ends => next x w' (H.kept here (first _ _ ends).2) ends

theorem seq (first : a.RefinesOn A R b) (next : ∀ x, (f x).RefinesOn A R (g x)) :
    (a >>= f).RefinesOn A R (b >>= g) :=
  fun w here => H.seq_at here (first w here) fun x w' there _ => next x w' there

theorem seq_update {f : World → World} {g h : Unit → Action β} (here : A w) (change : R w (f w))
    (next : A (f w) → (g ()).RefinesAt R (f w) (h ())) :
    (Action.update f >>= g).RefinesAt R w (Action.update f >>= h) := by
  intro r w' run
  obtain ⟨also, keeps⟩ := next (H.kept here change) r w' run
  exact ⟨also, H.border.trans change keeps⟩

theorem seq_add {f : World → World × α} {g h : α → Action β} (here : A w) (change : R w (f w).1)
    (next : A (f w).1 → (g (f w).2).RefinesAt R (f w).1 (h (f w).2)) :
    (Action.add f >>= g).RefinesAt R w (Action.add f >>= h) := by
  intro r w' run
  obtain ⟨also, keeps⟩ := next (H.kept here change) r w' run
  exact ⟨also, H.border.trans change keeps⟩

omit H

theorem attempt (refines : a.RefinesOn A R b) : a.attempt.RefinesOn A R b.attempt :=
  fun w here => (refines w here).attempt

theorem mapError {f : BindError → BindError} (refines : a.RefinesOn A R b) :
    (a.mapError f).RefinesOn A R (b.mapError f) := fun w here => (refines w here).mapError

include H

theorem holding_at (hs : List Handle) (refines : a.RefinesAt R (w.hold hs) b) :
    (Action.holding hs a).RefinesAt R w (Action.holding hs b) := refines.within H.border.hold

theorem holding (hs : List Handle) (refines : a.RefinesOn A R b) :
    (Action.holding hs a).RefinesOn A R (Action.holding hs b) :=
  fun _ here => H.holding_at hs (refines _ (H.hold hs here))

end

end Domain

/-! ### Bodies -/

namespace Answering
open Domain
variable {A : World → Prop} {R : World → World → Prop} {self other : Performer}
  (H : Answering A R self other) {α : Type}
include H

theorem run (p : Program α) : (p.run self).RefinesOn A R (p.run other) := by
  match p with
  | .done r => exact (H.border.ofExcept r).refinesOn
  | .ask q k =>
    intro w here r w'' ends
    unfold Program.run at ends
    split at ends
    · cases ends
    · next r' w' answer =>
      obtain ⟨also, keeps⟩ := H.asked _ q w here _ _ answer
      obtain ⟨rest, kept⟩ := run (k r') w' (H.kept here keeps) _ _ ends
      refine ⟨?_, H.border.trans keeps kept⟩
      unfold Program.run
      rw [also]
      exact rest
termination_by structural p

theorem runCode (f : FunctionRef) (s : Scope) (args : Arguments) :
    (LiveBinding.runCode self f s args).RefinesOn A R (LiveBinding.runCode other f s args) :=
  fun w => H.run (w.code f s args) w

/-- A function comes to the same if the performers agree one level deeper. -/
theorem callFunction_at (f : FunctionRef) (args : Arguments) (s : Scope) {w : World}
    (entered : A {w.called f args s with depth := w.depth + 1}) :
    (LiveBinding.callFunction self f args s).RefinesAt R w
      (LiveBinding.callFunction other f args s) := by
  have called : R w (w.called f args s) := H.border.quiet ⟨rfl, id, id, id, Nat.le_refl _⟩
  intro r w' run
  rw [callFunction_eq] at run ⊢
  by_cases allowed : w.depth + 1 ≤ w.limitInForce
  · have inside : (Action.nested _).RefinesAt R (w.called f args s) (Action.nested _) :=
      .within H.border.nested (H.holding (.function f :: s.handles ++ args.handles)
        (H.runCode f s args) _ entered)
    rw [if_pos allowed] at run ⊢
    obtain ⟨also, keeps⟩ := inside r w' run
    exact ⟨also, H.border.trans called keeps⟩
  · rw [if_neg allowed] at run ⊢
    cases run
    exact ⟨rfl, called⟩

/-- Functions come to the same if one more body makes no difference to the worlds in question. -/
theorem calling (nested : ∀ {w}, A w → A {w with depth := w.depth + 1}) :
    Calling A R self other where
  toDomain := H.toDomain
  callFunction f args s _ here :=
    H.callFunction_at f args s
      (nested (H.kept here (H.border.quiet ⟨rfl, id, id, id, Nat.le_refl _⟩)))

end Answering

/-! ### Handlers and engines -/

namespace Calling
open Domain Steady
variable {A : World → Prop} {R : World → World → Prop} {self other : Performer}
  (H : Calling A R self other) {w : World}
include H

theorem invoke (h : Handler) (i : Invocation) :
    (h.invoke self i).RefinesOn A R (h.invoke other i) := by
  have F := H.border
  refine H.holding i.handles ?_
  split
  · exact H.seq (F.scope h _).refinesOn fun s => H.seq (H.callFunction _ _ _) fun v => H.pure _
  · refine H.seq (F.newTracer _ _).refinesOn fun t => H.seq (F.scope h _).refinesOn fun s => ?_
    exact H.seq (H.callFunction _ _ _) fun v => H.pure _
  · exact H.seq (F.scope h _).refinesOn fun s => H.seq (H.callFunction _ _ _) fun v => H.pure _
  · refine H.seq (F.scope h _).refinesOn fun s => reading fun v => ?_
    exact H.seq (H.callFunction _ _ _) fun _ => H.pure _
  · exact H.throw _

theorem handlerRead (h : Handler) (owner : ObjectId) (name : String) :
    (h.read self owner name).RefinesOn A R (h.read other owner name) := by
  refine H.seq (H.invoke h _) fun outcome => ?_
  cases outcome with
  | value v => exact H.pure v
  | traced v t => exact H.pure v
  | written => exact H.throw _

theorem readTraced (h : Handler) (owner : ObjectId) (name : String) :
    (h.readTraced self owner name).RefinesOn A R (h.readTraced other owner name) := by
  unfold Handler.readTraced
  split
  · refine H.seq (H.invoke h _) fun outcome => ?_
    cases outcome with
    | traced v t => exact H.pure _
    | value v => exact H.throw _
    | written => exact H.throw _
  · exact H.throw _

theorem handlerWrite (h : Handler) (owner : ObjectId) (name : String) (change : ObjectId) :
    (h.write self owner name change).RefinesOn A R (h.write other owner name change) :=
  H.seq (H.invoke h _) fun _ => H.pure ()

/-- A binding that is found before an evaluation is still there when links follow it. -/
theorem evaluate (e : EngineRef) (owner : ObjectId) (name : String) (h : Handler) (here : A w)
    (bound : (w.engine e).bindings.contains name = true) :
    (Engine.evaluate self e owner name h).RefinesAt R w (Engine.evaluate other e owner name h) := by
  have F := H.border
  have reads := H.readTraced h owner name w here
  unfold Engine.evaluate
  split
  · refine H.seq_at here reads fun x w' _ found => ?_
    have relinked := F.relink w' e owner name x.2 (F.bound (reads _ _ found).2 bound)
    have ends := F.seq_at relinked fun _ w'' _ => F.toSteady.pure (some x.1) w''
    rw [Action.bind_assoc] at ends
    exact ends.refines
  · exact H.seq (H.handlerRead h owner name) (fun v => H.pure (some v)) w here

/-- The read of an engine comes to the same if calls do under its own limit. -/
theorem readBinding_at (e : EngineRef) (owner : ObjectId) (name : String)
    (entered : A {w with limit := some (w.engine e).config.maxDepth}) :
    (Engine.read self e owner name).RefinesAt R w (Engine.read other e owner name) := by
  refine seq_read ?_
  cases found : ((w.engine e).bindings.get? name).bind Binding.read with
  | none => exact (H.border.toSteady.pure none w).refines
  | some h =>
    have bound : (w.engine e).bindings.contains name = true := by
      obtain ⟨b, there, _⟩ := Option.bind_eq_some_iff.1 found
      rw [Dict.contains, there]
      rfl
    refine .within H.border.limited (H.seq_at entered (.attempt ?_) fun r w' there _ => ?_)
    · exact H.evaluate e owner name h entered bound
    · exact (H.border.settle _ none owner name r).refinesOn w' there

theorem writeBinding_at (e : EngineRef) (owner : ObjectId) (name : String) (change : ObjectId)
    (entered : A {w with limit := some (w.engine e).config.maxDepth}) :
    (Engine.write self e owner name change).RefinesAt R w
      (Engine.write other e owner name change) := by
  refine seq_read ?_
  split
  · exact (H.border.log _ w).refines
  · split
    · exact (H.border.toSteady.pure () w).refines
    · next h _ =>
      refine .within H.border.limited (H.seq ?_ (fun r => ?_) _ entered)
      · exact attempt (H.handlerWrite h owner name change)
      · exact (H.border.settle _ () owner name r).refinesOn

end Calling

namespace Answering
variable {A : World → Prop} {R : World → World → Prop} {self other : Performer}

/-- Performers that agree where bodies run, whatever limit is in force, are in accord. -/
theorem accord (H : Answering A R self other) (C : Calling A R self other)
    (limited : ∀ {w} n, A w → A {w with limit := n})
    (updated : ∀ {e o name x u w}, A u → Engine.read self e o name u = some (.ok (some x), w) →
      (Action.guarding e name (self Unit (.setAttr (.object o) name x))).RefinesAt R
        (w.addEntry (.bindingUpdated o name (w.text x)))
        (Action.guarding e name (other Unit (.setAttr (.object o) name x)))) :
    Accord A R self other :=
  { H, C with
    readBinding := fun e owner name _ here => C.readBinding_at e owner name (limited _ here)
    writeBinding := fun e owner name change _ here =>
      C.writeBinding_at e owner name change (limited _ here)
    updated := updated }

/-- The assignment at the end of an update is no exception if guards make no difference to the
worlds in question. -/
theorem updated_of_guarded (H : Answering A R self other) (F : Frame R)
    (reads : ∀ e owner name, (Engine.read self e owner name).RefinesOn A R
      (Engine.read other e owner name))
    (guarded : ∀ {w} e name, A w → A (w.guard e name)) {e : EngineRef} {o : ObjectId}
    {name : String} {x : Value} {u w : World} (here : A u)
    (run : Engine.read self e o name u = some (.ok (some x), w)) :
    (Action.guarding e name (self Unit (.setAttr (.object o) name x))).RefinesAt R
      (w.addEntry (.bindingUpdated o name (w.text x)))
      (Action.guarding e name (other Unit (.setAttr (.object o) name x))) := by
  have read : A w := H.kept here (reads e o name u here _ _ run).2
  have logged : A (w.addEntry (.bindingUpdated o name (w.text x))) :=
    H.kept read (H.border.quiet ⟨rfl, id, id, id, Nat.le_refl _⟩)
  exact .within F.guarded (H.asked _ _ _ (guarded e name logged))

end Answering

/-- The elementary changes that moves on one attribute are made of stay inside a relation. -/
structure Touches (R : World → World → Prop) (o : ObjectId) (name : String) : Prop where
  change : ∀ w c, c.owner = o ∧ c.name = name → R w (w.addObject (.change c)).1
  store : ∀ w d v, w.declared? o = some d → d.isConstant name = false →
    d.hasAttribute name = true →
    R w (w.modifyDeclared o fun d => {d with values := d.values.insert name v})
  unset : ∀ w d old, w.declared? o = some d → d.isConstant name = false →
    d.values.get? name = some old →
    R w (w.modifyDeclared o fun d => ({d with values := d.values.erase name}).declare name)
  tell : ∀ {w u} y i c, c.owner = o ∧ c.name = name → w.change? i = some c → R w u →
    R u (u.tell y i)

/-- The requests that make a change up, bind an attribute or add an observer. -/
def Request.Arranges : {α : Type} → Request α → Prop
  | _, .newChange _ | _, .bind .. | _, .addBinding .. | _, .subscribe .. => True
  | _, _ => False

/-- The change that a request delivers by itself. -/
def Request.delivered? : {α : Type} → Request α → Option ObjectId
  | _, .notify _ change => some change
  | _, _ => none

namespace Frame
open Steady
variable {R : World → World → Prop} (F : Frame R) {self : Performer}
include F

theorem subscribe (r : RegistryRef) (name : String) (code : ObjectId → Program Unit) : (do
    let c ← Action.add (·.addWatcher ⟨code⟩)
    Engine.observe r name (.watcher c)
    return (⟨name, c⟩ : Subscription)).Keeps R := by
  have added : (Action.add (·.addWatcher ⟨code⟩)).Keeps R :=
    F.add fun _ => ⟨rfl, id, World.getElem?_push_of_eq_some _, id, Nat.le_refl _⟩
  exact F.seq added fun c w => F.seq_update (F.observe w r name c) (F.pure _ _)

theorem touches (o : ObjectId) (name : String) : Touches R o name where
  change w c _ := F.change w c
  store w d v := F.store w o d name v
  unset w d old := F.unset w o d name old
  tell y i _ _ _ _ := F.tell _ y i

/-- A performer that answers whatever another one answers is in accord with it everywhere. -/
theorem accord {other : Performer}
    (answers : ∀ (β : Type) (q : Request β), (self β q).Refines R (other β q)) :
    Accord (fun _ => True) R self other :=
  have H : Answering (fun _ => True) R self other :=
    { border := F.toBorder
      kept := fun _ _ => trivial
      hold := fun _ _ => trivial
      asked := fun β q w _ => answers β q w }
  H.accord (H.calling fun _ => trivial) (fun _ _ => trivial) fun _ _ =>
    .within F.guarded (answers _ _ _)

theorem itself (answers : ∀ (β : Type) (q : Request β), (self β q).Keeps R) :
    Accord (fun _ => True) R self self := F.accord fun β q => (answers β q).refines

end Frame

namespace Accord
open Domain Steady
variable {A : World → Prop} {R : World → World → Prop} {self other : Performer}
variable (H : Accord A R self other) {α β : Type} {w : World}

section
include H

/-! ### Updates -/

theorem updateBinding (e : EngineRef) (owner : ObjectId) (name : String) :
    (Engine.update self e owner name).RefinesOn A R (Engine.update other e owner name) := by
  refine H.holding _ fun w here => ?_
  refine H.seq_at here (H.readBinding e owner name w here) fun v w' there found => ?_
  cases v with
  | none => exact H.pure () w' there
  | some v =>
    refine seq_read (H.seq_update there ?_ fun _ => ?_)
    · exact H.border.quiet ⟨rfl, id, id, id, Nat.le_refl _⟩
    · exact H.updated here found

/-! ### Observers -/

theorem refresh (l : Link) (c : Change) :
    (LiveBinding.refresh self l c).RefinesOn A R (LiveBinding.refresh other l c) := by
  refine reading fun engine => reading fun owner => ?_
  split
  · refine H.seq (H.log _) fun _ => ?_
    refine H.seq (attempt (H.updateBinding l.engine l.owner l.name)) fun r => ?_
    cases r with
    | ok _ => exact H.pure ()
    | error e => exact H.log _
  · exact H.pure ()

theorem watch (x : Watcher) (change : ObjectId) :
    (LiveBinding.watch self x change).RefinesOn A R (LiveBinding.watch other x change) :=
  H.seq (attempt (H.run (x.code change))) fun _ => H.pure ()

theorem react (change : ObjectId) (x : Observer) :
    (LiveBinding.react self change x).RefinesOn A R (LiveBinding.react other change x) := by
  intro w here
  have silent : (Pure.pure () : Action Unit).RefinesAt R w (Pure.pure ()) := H.pure () w here
  cases x with
  | watcher c =>
    cases found : w.watchers[c.index]? with
    | none =>
      refine .congr ?_ ?_ silent
      all_goals simp only [LiveBinding.react, found, Action.pure_apply]
    | some x =>
      refine .congr ?_ ?_ (H.watch x change w here)
      all_goals simp only [LiveBinding.react, found]
  | link l =>
    cases found : w.links[l.index]? with
    | none =>
      refine .congr ?_ ?_ silent
      all_goals simp only [LiveBinding.react, found, Action.pure_apply]
    | some x =>
      cases what : w.change? change with
      | none =>
        refine .congr ?_ ?_ silent
        all_goals simp only [LiveBinding.react, found, what, Action.pure_apply]
      | some c =>
        refine .congr ?_ ?_ (H.refresh x c w here)
        all_goals simp only [LiveBinding.react, found, what]

theorem inform_at {change : ObjectId} {x : Observer} (here : A w)
    (tell : R w (w.tell x change)) : (LiveBinding.inform self change x).RefinesAt R w
      (LiveBinding.inform other change x) :=
  H.seq_update here tell fun there => H.react change x _ there

theorem deliver_at {change : ObjectId} {v : World} (tell : ∀ {u} y, R v u → R u (u.tell y change))
    (xs : List Observer) (here : A w) (since : R v w) :
    (LiveBinding.deliver self change xs).RefinesAt R w (LiveBinding.deliver other change xs) := by
  induction xs generalizing w with
  | nil => exact H.pure () w here
  | cons x rest ih =>
    have first := H.inform_at here (tell x since)
    exact H.seq_at here first fun _ _ there ends => ih there
      (H.border.trans since (first _ _ ends).2)

/-- A notification stays inside a relation if it may tell of its change from then on. -/
theorem notify_at (r : RegistryRef) (change : ObjectId) (here : A w)
    (tell : ∀ {v u} c y, w.change? change = some c → v.objects = w.objects → R v u →
      R u (u.tell y change)) :
    (LiveBinding.notify self r change).RefinesAt R w (LiveBinding.notify other r change) := by
  unfold LiveBinding.notify
  refine seq_read ?_
  split
  · exact H.pure 0 w here
  · next c known =>
    refine seq_read ?_
    split
    · exact H.pure 0 w here
    · next xs found =>
      refine seq_read (H.seq_update here (H.border.prune w r c.name xs found) fun there => ?_)
      refine H.seq_update there (H.border.quiet ⟨rfl, id, id, id, Nat.le_refl _⟩) fun there => ?_
      refine H.seq_at there (H.holding_at _ ?_) fun _ _ there _ => H.pure _ _ there
      refine H.deliver_at (fun y since => ?_) _ (H.hold _ there) (H.border.refl _)
      refine tell c y known ?_ since
      rfl

section
variable (F : Frame R)
include F

theorem inform (change : ObjectId) (x : Observer) :
    (LiveBinding.inform self change x).RefinesOn A R (LiveBinding.inform other change x) :=
  fun w here => H.inform_at here (F.tell w x change)

theorem deliver (change : ObjectId) (xs : List Observer) :
    (LiveBinding.deliver self change xs).RefinesOn A R (LiveBinding.deliver other change xs) :=
  fun w here => H.deliver_at (fun y _ => F.tell _ y change) xs here (F.refl w)

theorem notify (r : RegistryRef) (change : ObjectId) :
    (LiveBinding.notify self r change).RefinesOn A R (LiveBinding.notify other r change) :=
  fun _ here => H.notify_at r change here fun _ y _ _ _ => F.tell _ y change

end

/-! ### Attributes -/

variable {o : ObjectId} {name : String}

/-- What the engine of an object does about a change. -/
theorem writeBack (o : ObjectId) (name : String) (change : ObjectId) : Action.RefinesOn A R
    (do
      match ← Action.read (·.engineOf? o) with
      | some e => Action.holding [.engine e] (Engine.write self e o name change)
      | none => Pure.pure () : Action Unit)
    (do
      match ← Action.read (·.engineOf? o) with
      | some e => Action.holding [.engine e] (Engine.write other e o name change)
      | none => Pure.pure () : Action Unit) := by
  refine reading fun e => ?_
  cases e with
  | none => exact H.pure ()
  | some e => exact H.holding _ (H.writeBinding e o name change)

/-- What is done about a change that has been made. -/
theorem makeKnown_at (o : ObjectId) (name : String) (change : ObjectId) (here : A w)
    (tell : ∀ {v u} c y, w.change? change = some c → v.objects = w.objects → R v u →
      R u (u.tell y change)) : Action.RefinesAt R w
    (do
      match ← Action.read (·.registryOf? o) with
      | some r => let _ ← LiveBinding.notify self r change
      | none => Pure.pure ()
      match ← Action.read (·.engineOf? o) with
      | some e => Action.holding [.engine e] (Engine.write self e o name change)
      | none => Pure.pure () : Action Unit)
    (do
      match ← Action.read (·.registryOf? o) with
      | some r => let _ ← LiveBinding.notify other r change
      | none => Pure.pure ()
      match ← Action.read (·.engineOf? o) with
      | some e => Action.holding [.engine e] (Engine.write other e o name change)
      | none => Pure.pure () : Action Unit) := by
  refine seq_read ?_
  split
  · next r _ =>
    exact H.seq_at here (H.notify_at r change here tell) fun _ _ there _ =>
      H.writeBack o name change _ there
  · exact H.writeBack o name change w here

theorem dispatch_at (kind : ChangeKind) (old new : Value) (here : A w)
    (change : R w (w.addObject (.change ⟨kind, o, name, old, new⟩)).1)
    (tell : ∀ {v u} y i, v.change? i = some ⟨kind, o, name, old, new⟩ → R v u →
      R u (u.tell y i)) :
    (LiveBinding.dispatch self o kind name old new).RefinesAt R w
      (LiveBinding.dispatch other o kind name old new) := by
  refine H.seq_add here change fun there => H.holding_at _ ?_
  refine H.makeKnown_at o name _ (H.hold _ there) fun {v u} c y known same since => ?_
  have there : v.entity? ⟨w.objects.size⟩ = some (.change ⟨kind, o, name, old, new⟩) := by
    rw [World.entity?, same]
    exact Array.getElem?_push_size
  have made : v.change? ⟨w.objects.size⟩ = some ⟨kind, o, name, old, new⟩ := by
    rw [World.change?, there]
  exact tell y _ made since

/-- A change that is made is about the attribute, and so is what its observers are told of. -/
theorem dispatch (T : Touches R o name) (kind : ChangeKind) (old new : Value) :
    (LiveBinding.dispatch self o kind name old new).RefinesOn A R
      (LiveBinding.dispatch other o kind name old new) :=
  fun _ here => H.dispatch_at kind old new here (T.change _ _ ⟨rfl, rfl⟩)
    fun y i => T.tell y i _ ⟨rfl, rfl⟩

/-- Storing a value is part of an assignment that has made sure of the attribute. -/
theorem assignDeclared (T : Touches R o name) {d : Declared} (v : Value) (here : A w)
    (known : w.declared? o = some d) :
    (LiveBinding.assignDeclared self o d name v).RefinesAt R w
      (LiveBinding.assignDeclared other o d name v) := by
  unfold LiveBinding.assignDeclared
  cases constant : d.isConstant name with
  | true => exact H.throw _ w here
  | false =>
    cases declared : d.hasAttribute name with
    | false => exact H.throw _ w here
    | true =>
      have stored := T.store w d v known constant declared
      have told (kind : ChangeKind) (old : Value) : Action.RefinesAt R w
          (do storeValue o name v; LiveBinding.dispatch self o kind name old v)
          (do storeValue o name v; LiveBinding.dispatch other o kind name old v) :=
        H.seq_update here stored fun there => H.dispatch T kind old v _ there
      cases d.values.get? name with
      | none => exact told .create .null
      | some old =>
        refine seq_read ?_
        cases w.equal old v with
        | true => exact H.pure () w here
        | false => exact told .update old

theorem assign (T : Touches R o name) (v : Value) :
    (LiveBinding.assign self o name v).RefinesOn A R (LiveBinding.assign other o name v) := by
  intro w here
  refine seq_read ?_
  split
  · next d known =>
    have declared : w.declared? o = some d := by rw [World.declared?, known]
    exact H.holding_at _ (H.assignDeclared T v (H.hold _ here) declared)
  · split
    · exact H.throw _ w here
    · exact H.throw _ w here
  · refine seq_read ?_
    split
    · exact H.holding _ (H.asked _ _) w here
    · exact reading (fun _ => H.throw _) w here
  · exact H.throw _ w here

theorem emit (T : Touches R o name) (v : Value) :
    (LiveBinding.emit self o name v).RefinesOn A R (LiveBinding.emit other o name v) := by
  refine reading fun there => ?_
  split
  · exact H.holding _ (H.dispatch T .event .null v)
  · exact reading fun _ => H.throw _

theorem clearAttr (T : Touches R o name) :
    (LiveBinding.clear self o name).RefinesOn A R (LiveBinding.clear other o name) := by
  intro w here
  refine seq_read ?_
  cases known : w.declared? o with
  | none => exact H.pure () w here
  | some d =>
    dsimp only
    cases constant : d.isConstant name with
    | true => exact H.throw _ w here
    | false =>
      cases stored : d.values.get? name with
      | none => exact H.pure () w here
      | some old =>
        have change := T.unset w d old known constant stored
        exact H.seq_update here change fun there => H.dispatch T .delete old .null _ there

theorem move (T : Touches R o name) (move : Move) :
    (move.run self o name).RefinesOn A R (move.run other o name) := by
  cases move with
  | assign x => exact H.assign T x
  | emit x => exact H.emit T x
  | clear => exact H.clearAttr T

theorem loadName (owner : ObjectId) (name : String) (t : Option TracerRef) :
    (LiveBinding.loadName self owner name t).RefinesOn A R
      (LiveBinding.loadName other owner name t) := by
  refine reading fun o => ?_
  cases o with
  | none => exact H.pure none
  | some o =>
    refine H.seq (H.asked _ _) fun v => ?_
    cases v with
    | none => exact H.pure none
    | some v =>
      cases t with
      | none => exact H.pure (some v)
      | some t => exact H.seq (H.border.record t o name).refinesOn fun _ => H.pure (some v)

theorem readDeclared (o : ObjectId) (d : Declared) (name : String) :
    (LiveBinding.readDeclared self o d name).RefinesOn A R
      (LiveBinding.readDeclared other o d name) := by
  have found : (do return some ((← Action.read (·.stored? o name)).getD .null) :
      Action (Option Value)).Keeps R := H.border.seq (H.border.read _) fun _ =>
      H.border.toSteady.pure _
  unfold LiveBinding.readDeclared
  split
  · exact H.pure _
  · split
    · exact H.pure none
    · split
      · next e _ =>
        refine reading fun reader => ?_
        cases reader with
        | true => exact H.seq (H.updateBinding e o name) fun _ => found.refinesOn
        | false => exact found.refinesOn
      · exact found.refinesOn

theorem readAttr (o : ObjectId) (name : String) :
    (LiveBinding.readAttr self o name).RefinesOn A R (LiveBinding.readAttr other o name) := by
  refine reading fun entity => ?_
  split
  · exact H.holding _ (H.readDeclared o _ name)
  · exact H.pure _
  · exact H.holding _ (H.loadName _ name _)
  · exact H.pure none

theorem getAttr (v : Value) (name : String) :
    (LiveBinding.getAttr self v name).RefinesOn A R (LiveBinding.getAttr other v name) := by
  unfold LiveBinding.getAttr
  split
  · refine H.seq (H.readAttr _ name) fun x => ?_
    cases x with
    | some x => exact H.pure x
    | none => exact reading fun _ => H.throw _
  · exact reading fun _ => H.throw _

theorem populateAll (o : ObjectId) (e : EngineRef) (names : List String) :
    (LiveBinding.populateAll self o e names).RefinesOn A R
      (LiveBinding.populateAll other o e names) := by
  induction names with
  | nil => exact H.pure ()
  | cons name rest ih =>
    refine reading fun reader => reading fun unset => ?_
    cases reader && unset with
    | true => exact H.seq (H.readAttr o name) fun _ => ih
    | false => exact ih

theorem populate (o : ObjectId) :
    (LiveBinding.populate self o).RefinesOn A R (LiveBinding.populate other o) := by
  refine reading fun e => ?_
  cases e with
  | none => exact H.pure ()
  | some e => exact reading fun names => H.holding _ (H.populateAll o e names)

/-! ### Names -/

theorem outerName (s : Scope) (name : String) :
    (LiveBinding.outerName self s name).RefinesOn A R (LiveBinding.outerName other s name) := by
  refine H.seq (H.loadName _ _ _) fun v => ?_
  cases v with
  | some v => exact H.pure v
  | none =>
    cases s.environment.globals.get? name with
    | some v => exact H.pure v
    | none =>
      cases s.environment.builtins.get? name with
      | some v => exact H.pure v
      | none => exact H.throw _

/-- What a name means that may be reserved. -/
theorem nameBehind (s : Scope) (name : String) (v : Option Value) : Action.RefinesOn A R
    (do
      match v with
      | some v => return v
      | none =>
        match ← Action.read fun w => (w.layer s.locals).get? name with
        | some v => return v
        | none => LiveBinding.outerName self s name : Action Value)
    (do
      match v with
      | some v => return v
      | none =>
        match ← Action.read fun w => (w.layer s.locals).get? name with
        | some v => return v
        | none => LiveBinding.outerName other s name : Action Value) := by
  cases v with
  | some v => exact H.pure v
  | none =>
    refine reading fun v => ?_
    cases v with
    | some v => exact H.pure v
    | none => exact H.outerName s name

theorem getName (s : Scope) (name : String) :
    (LiveBinding.getName self s name).RefinesOn A R (LiveBinding.getName other s name) := by
  unfold LiveBinding.getName
  split
  · exact H.seq (H.border.reserved s _ fun w => H.border.view w _ _).refinesOn (H.nameBehind s name)
  · exact H.seq (H.pure none) (H.nameBehind s name)

/-! ### Inversion -/

theorem follow (path : Path) (hops : List String) (v : Value) :
    (LiveBinding.follow self path hops v).RefinesOn A R (LiveBinding.follow other path hops v) := by
  induction hops generalizing v with
  | nil => exact H.pure v
  | cons hop rest ih =>
    refine H.seq (attempt (H.getAttr v hop)) fun r => ?_
    split
    · exact ih _
    · exact reading fun _ => H.throw _
    · exact H.throw _

theorem resolve (s : Scope) (path : Path) :
    (LiveBinding.resolve self s path).RefinesOn A R (LiveBinding.resolve other s path) :=
  H.seq (mapError (H.getName s path.root)) fun v => H.follow path path.hops v

/-! ### Calls and traces -/

theorem runNative (f : NativeRef) (args : List Value) :
    (LiveBinding.runNative self f args).RefinesOn A R (LiveBinding.runNative other f args) := by
  intro w here
  cases found : w.natives[f.index]? with
  | none =>
    refine .congr ?_ ?_ (H.pure .null w here)
    all_goals simp only [LiveBinding.runNative, found, Action.pure_apply]
  | some n =>
    refine .congr ?_ ?_ (H.run (n.code args) w here)
    all_goals simp only [LiveBinding.runNative, found]

theorem callValue (f : Value) (args : List Value) :
    (LiveBinding.callValue self f args).RefinesOn A R (LiveBinding.callValue other f args) := by
  unfold LiveBinding.callValue
  split
  · exact H.holding _ (H.runNative _ args)
  · exact reading fun _ => H.throw _

theorem loadAttr (t : TracerRef) (v : Value) (name : String) :
    (LiveBinding.loadAttr self t v name).RefinesOn A R (LiveBinding.loadAttr other t v name) := by
  refine H.seq (H.holding _ (H.getAttr v name)) fun x => ?_
  split
  · exact H.seq (H.border.record t _ name).refinesOn fun _ => H.pure x
  · exact H.pure x

theorem callTraced (t : TracerRef) (f : Value) (args : List Value) :
    (LiveBinding.callTraced self t f args).RefinesOn A R
      (LiveBinding.callTraced other t f args) := by
  refine H.seq (H.holding _ (H.callValue f args)) fun x => ?_
  split
  · refine reading fun called => ?_
    split
    · exact H.seq (H.border.record t _ _).refinesOn fun _ => H.pure x
    · exact H.pure x
  · exact H.pure x

/-! ### Assignments through something else -/

theorem setAttr_at (v : Value) (name : String) (x : Value) (here : A w)
    (assign : ∀ o, v = .object o →
      (LiveBinding.assign self o name x).RefinesAt R w (LiveBinding.assign other o name x)) :
    (LiveBinding.setAttr self v name x).RefinesAt R w (LiveBinding.setAttr other v name x) := by
  unfold LiveBinding.setAttr
  split
  · exact assign _ rfl
  · exact reading (fun _ => H.throw _) w here

theorem setName_at (s : Scope) (name : String) (x : Value) (here : A w)
    (assign : ∀ o, isReserved name = false → w.nearest? s.owner name = some o →
      (LiveBinding.assign self o name x).RefinesAt R w (LiveBinding.assign other o name x)) :
    (LiveBinding.setName self s name x).RefinesAt R w (LiveBinding.setName other s name x) := by
  unfold LiveBinding.setName
  split
  · exact H.throw _ w here
  · next free =>
    refine seq_read ?_
    cases nearest : w.nearest? s.owner name with
    | some o => exact assign o (by simpa using free) nearest
    | none => exact (H.border.storeLocal _ _ _).refinesOn w here

theorem invert_at (s : Scope) (target : Target) (x : Value) (here : A w)
    (moves : ∀ {o name move v}, A v → Makes self o name (.invert s target x) w move v →
      (move.run self o name).RefinesAt R v (move.run other o name)) :
    (LiveBinding.invert self s target x).RefinesAt R w (LiveBinding.invert other s target x) := by
  have held : A (w.hold (target.handles ++ x.handles)) := H.hold _ here
  have assigned : (LiveBinding.assignTarget self s x target).RefinesAt R
      (w.hold (target.handles ++ x.handles)) (LiveBinding.assignTarget other s x target) := by
    cases target with
    | name name =>
      show Action.RefinesAt R _ (if isReserved name then _ else _)
        (if isReserved name then _ else _)
      split
      · exact H.throw _ _ held
      · refine .mapError (H.setName_at s name x held fun o free nearest => ?_)
        exact moves held (.invertName free nearest)
    | attr base name =>
      refine H.seq_at held (H.resolve s base _ held) fun v u there resolved => ?_
      refine .mapError (H.setAttr_at v name x there fun o same => ?_)
      subst same
      exact moves there (.moves id (.invertAttr resolved))
    | item base key =>
      exact H.seq (H.resolve s base) (fun o => mapError (H.border.setItem o key x).refinesOn) _ held
    | call function args =>
      refine H.seq_at held (mapError (H.getName s function) _ held) fun f u there called => ?_
      refine seq_read ?_
      cases f with
      | native f =>
        by_cases invertible : u.nativeName f = getattrName
        · simp only [invertible, decide_true, if_true]
          split
          · next o name =>
            refine .mapError (H.setAttr_at o name x there fun o same => ?_)
            subst same
            exact moves there (.moves id (.invertCall (Action.of_mapError called) invertible))
          · exact H.throw _ u there
        · simp only [invertible, decide_false, Bool.false_eq_true, if_false]
          exact H.throw _ u there
      | _ => exact H.throw _ u there
    | unsupported shape => exact H.throw _ _ held
  refine H.seq_at here (.attempt (H.holding_at _ assigned)) fun r u there _ => ?_
  cases r with
  | ok _ => exact H.pure () u there
  | error e => exact reading (fun _ => H.seq (H.log _) fun _ => H.throw e) u there

/-! ### Requests -/

/-- Both performers lead to the same answer if the moves that the request makes do, and if the
request does not arrange or deliver anything itself. -/
theorem respond_at (q : Request α) (here : A w)
    (moves : ∀ {o name move v}, A v → Makes self o name q w move v →
      (move.run self o name).RefinesAt R v (move.run other o name))
    (tell : ∀ {i v u} c y, q.delivered? = some i → w.change? i = some c → v.objects = w.objects →
      R v u → R u (u.tell y i))
    (arranged : q.Arranges →
      (LiveBinding.respond self α q).RefinesAt R w (LiveBinding.respond other α q)) :
    (LiveBinding.respond self α q).RefinesAt R w (LiveBinding.respond other α q) := by
  have F := H.border
  cases q with
  | query q => exact (F.read _).refinesOn w here
  | holding hs p => exact H.holding hs (H.run p) w here
  | newList items => exact H.seq (F.addList items).refinesOn (fun _ => H.pure _) w here
  | newMap entries => exact H.seq (F.addMap entries).refinesOn (fun _ => H.pure _) w here
  | newNative name captured code =>
    have quiet (w : World) : w.Quiet (w.addNative ⟨name, captured, code⟩).1 :=
      ⟨rfl, id, id, World.getElem?_push_of_eq_some _, Nat.le_refl _⟩
    exact (Action.KeepsAt.of_eq rfl (F.quiet (quiet w))).refines
  | newFunction name environment code =>
    have quiet (w : World) : w.Quiet (w.addFunction ⟨name, environment, code⟩).1 :=
      ⟨rfl, World.getElem?_push_of_eq_some _, id, id, Nat.le_refl _⟩
    exact (Action.KeepsAt.of_eq rfl (F.quiet (quiet w))).refines
  | getAttr v name => exact H.getAttr v name w here
  | setAttr v name x =>
    refine H.setAttr_at v name x here fun o same => ?_
    subst same
    exact moves here (.moves id .setAttr)
  | getItem v key => exact (F.of_eq rfl).refines
  | setItem v key x => exact (F.setItem v key x).refinesOn w here
  | call f args => exact H.callValue f args w here
  | newObject b => exact (F.object b).refinesOn w here
  | newChange | bind | addBinding | subscribe => exact arranged trivial
  | readAttr o name => exact H.readAttr o name w here
  | emit o name x => exact moves here (.moves id .emit)
  | clear o name => exact moves here (.moves id .clear)
  | populate o => exact H.populate o w here
  | localSlot o key => exact (F.localSlot o key fun w free => F.slot w o key free).refinesOn w here
  | newLayer locals => exact (F.addLayer locals).refinesOn w here
  | storeLocal l name v => exact (F.storeLocal l name v).refinesOn w here
  | getName s name => exact H.getName s name w here
  | setName s name x =>
    refine H.setName_at s name x here fun o free nearest => ?_
    exact moves here (.moves id (.setName free nearest))
  | delName s name => exact (F.delName s name).refinesOn w here
  | invert s target x => exact H.invert_at s target x here moves
  | callFunction f args s => exact H.callFunction f args s w here
  | freshKey => exact F.freshKey.refinesOn w here
  | newRegistry => exact (Action.KeepsAt.of_eq rfl (F.registry w)).refines
  | notify r change => exact H.notify_at r change here fun c y => tell c y rfl
  | newTracer owner name => exact (F.newTracer owner name).refinesOn w here
  | trace t o name => exact (F.record t o name).refinesOn w here
  | loadAttr t v name => exact H.loadAttr t v name w here
  | callTraced t f args => exact H.callTraced t f args w here
  | finalize t => exact (F.finalize t).refinesOn w here
  | invoke h i => exact H.invoke h i w here
  | readWith h owner name => exact H.handlerRead h owner name w here
  | readTraced h owner name => exact H.readTraced h owner name w here
  | writeWith h owner name change => exact H.handlerWrite h owner name change w here
  | newEngine config => exact (F.newEngine config F.engine).refinesOn w here
  | readBinding e owner name => exact H.holding _ (H.readBinding e owner name) w here
  | writeBinding e owner name change =>
    exact H.holding _ (H.writeBinding e owner name change) w here
  | updateBinding e owner name => exact H.updateBinding e owner name w here
  | clearSubscriptions e => exact (Action.KeepsAt.of_eq rfl (F.clear w e)).refines
  | globalConfig => exact F.globalConfig.refinesOn w here
  | setGlobalConfig c => exact (F.setGlobalConfig c).refinesOn w here
  | setVariables | keep | release | record =>
    refine (F.update fun w => ?_).refinesOn w here
    exact ⟨rfl, id, id, id, Nat.le_refl _⟩
  | spend => exact F.spend.refinesOn w here

/-- Both performers lead to the same answer if all elementary changes stay inside. -/
theorem respond (F : Frame R) (q : Request α) :
    (LiveBinding.respond self α q).RefinesOn A R (LiveBinding.respond other α q) := by
  refine fun w here => H.respond_at q here (fun there _ => H.move (F.touches _ _) _ _ there)
    (fun _ y _ _ _ _ => F.tell _ y _) fun _ => ?_
  cases q with
  | newChange c => exact (Action.KeepsAt.of_eq rfl (F.change w c)).refines
  | bind o name op f key => exact (F.bind o name op f key).refinesOn w here
  | addBinding e name op f key => exact (Action.KeepsAt.of_eq rfl (F.addBinding w e name _)).refines
  | subscribe r name code => exact (F.subscribe r name code).refinesOn w here
  | _ => contradiction

end

end Accord

/-! ### One performer -/

namespace Frame
variable {R : World → World → Prop} (F : Frame R) {α : Type}
include F

/-- What is answered within some nested steps is answered in the same way within more. -/
theorem perform_le {m n : Nat} (fewer : m ≤ n) (q : Request α) :
    (LiveBinding.perform m α q).Refines R (LiveBinding.perform n α q) := by
  induction m generalizing n α with
  | zero =>
    intro w r w' run
    cases run
  | succ m ih =>
    obtain ⟨k, rfl⟩ : ∃ k, n = k + 1 := ⟨n - 1, by omega⟩
    exact fun w => (F.accord fun β q => ih (by omega) q).respond F q w trivial

/-- **Whatever is asked for, the world before and the world after are related.** -/
theorem perform (n : Nat) (q : Request α) : (LiveBinding.perform n α q).Keeps R := fun w =>
  (F.perform_le (Nat.le_refl n) q w).keeps

/-- What operations come to with `perform`, they come to with more nested steps. -/
theorem performing_le {m n : Nat} (fewer : m ≤ n) :
    Accord (fun _ => True) R (LiveBinding.perform m) (LiveBinding.perform n) :=
  F.accord fun _ q => F.perform_le fewer q

/-- What operations do with `perform` is in accord with itself. -/
theorem performing (n : Nat) :
    Accord (fun _ => True) R (LiveBinding.perform n) (LiveBinding.perform n) :=
  F.performing_le (Nat.le_refl n)

end Frame

end LiveBinding
