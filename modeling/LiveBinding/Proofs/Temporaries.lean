import LiveBinding.Proofs.NameWrites
import LiveBinding.Proofs.Slots
import LiveBinding.Proofs.Walks

/-! Temporaries.

A name that no object of the owner chain has becomes a local when it is assigned: a temporary of
the evaluation. Where evaluations keep their temporaries is settled when their scopes are built. If
the owner has a slot for the key of the handler by then, they are kept there; otherwise in a layer
of their own. As slots are never one layer, and a layer of one's own never becomes a slot, two
evaluations have their temporaries in common if and only if both have found the same slot. -/
namespace LiveBinding

/-! ### Activations -/

theorem Handler.scope_apply (h : Handler) (o : ObjectId) (w : World) :
    h.scope o w = some (.ok ⟨o, (w.localStorage? o h.key).getD ⟨w.layers.size⟩,
        w.functionEnvironment h.function, none, none⟩,
      if (w.localStorage? o h.key).isSome then w else (w.addLayer .empty).1) := by
  unfold Handler.scope
  rw [Action.read_bind]
  cases w.localStorage? o h.key <;> rfl

/-- An evaluation of a handler on an object, begun in some world. It may be about a change, and may
have a tracer. -/
structure Activation where
  handler : Handler
  owner : ObjectId
  start : World
  change : Option ObjectId
  tracer : Option TracerRef
  arises : start.Arises

namespace Activation
variable {e e₁ e₂ : Activation} {w : World} {o : ObjectId} {key : ScopeKey}

/-- The slot that the owner has for the key when the scope is built. -/
def slot? (e : Activation) : Option LayerRef := e.start.localStorage? e.owner e.handler.key

/-- What names are resolved in: the slot, or a layer that is made for this evaluation. -/
def scope (e : Activation) : Scope where
  owner := e.owner
  locals := e.slot?.getD ⟨e.start.layers.size⟩
  environment := e.start.functionEnvironment e.handler.function
  change := e.change
  tracer := e.tracer

/-- The world in which the scope is built. -/
def opened (e : Activation) : World :=
  if e.slot?.isSome then e.start else (e.start.addLayer .empty).1

/-- Both found a slot for the same key with the same owner. -/
def Shares (e₁ e₂ : Activation) : Prop :=
  e₁.owner = e₂.owner ∧ e₁.handler.key = e₂.handler.key ∧ e₁.slot?.isSome = true ∧
    e₂.slot?.isSome = true

/-- The scope of one is built before that of the other. The other may be nested in it or follow. -/
def Before (e₁ e₂ : Activation) : Prop := e₁.opened.Later e₂.start

theorem scope_eq (e : Activation) : e.handler.scope e.owner e.start =
    some (.ok {e.scope with change := none, tracer := none}, e.opened) :=
  e.handler.scope_apply e.owner e.start

theorem bind_scope {α : Type} {f : Scope → Action α} :
    (e.handler.scope e.owner >>= f) e.start =
      f {e.scope with change := none, tracer := none} e.opened := by
  rw [Action.bind_apply, e.scope_eq]

theorem later_opened (e : Activation) : e.start.Later e.opened := by
  unfold opened
  split
  · exact .refl _
  · exact .step (.quiet (e.start.quiet_addLayer .empty))

end Activation

/-- The object that an invocation is about. -/
def Invocation.owner : Invocation → ObjectId
  | .read owner _ | .write owner .. => owner

/-- A handler that serves an invocation runs its function in the scope of an activation. -/
theorem Handler.exists_activation {h : Handler} {i : Invocation} {n : Nat} {w w' : World}
    {r : Except BindError Outcome} (arises : w.Arises)
    (serves : h.kind.isRead = true ↔ i.service = .read)
    (run : h.invoke (perform n) i w = some (r, w')) :
    ∃ e : Activation, e.handler = h ∧ e.owner = i.owner ∧ w.Later e.start ∧ ∃ args r' v,
      callFunction (perform n) h.function args e.scope e.opened = some (r', v) ∧ v.Around w' := by
  obtain ⟨v, inner, rfl⟩ := Action.exists_of_holding run
  have held : w.Later (w.hold i.handles) := .hold w _
  have calls (e : Activation) {args : Arguments} {g : Value → Outcome} (handler : e.handler = h)
      (owner : e.owner = i.owner) (later : w.Later e.start)
      (run : (callFunction (perform n) h.function args e.scope >>= fun x => pure (g x)) e.opened =
        some (r, v)) :
      ∃ e : Activation, e.handler = h ∧ e.owner = i.owner ∧ w.Later e.start ∧ ∃ args r' v',
        callFunction (perform n) h.function args e.scope e.opened = some (r', v') ∧
          v'.Around {v with held := w.held} := by
    have around : v.Around {v with held := w.held} := ⟨_, _, _, rfl⟩
    rcases Action.exists_of_bind run with ⟨_, failed, _⟩ | ⟨_, _, called, rest⟩
    · exact ⟨e, handler, owner, later, _, _, _, failed, around⟩
    · cases rest
      exact ⟨e, handler, owner, later, _, _, _, called, around⟩
  cases i with
  | read owner name =>
    cases kind : h.kind with
    | standardRead =>
      rw [kind] at inner
      let e : Activation := ⟨h, owner, w.hold [.object owner], none, none, arises.later held⟩
      exact calls e rfl rfl held (e.bind_scope.symm.trans inner)
    | tracedRead =>
      rw [kind] at inner
      have traced := held.trans (.step (.tracer _ owner name))
      let e : Activation := ⟨h, owner, _, none, some ⟨w.tracers.size⟩, arises.later traced⟩
      exact calls e rfl rfl traced (e.bind_scope.symm.trans inner)
    | standardWrite | invertedWrite =>
      rw [kind] at serves
      exact absurd (serves.2 rfl) nofun
  | write owner name change =>
    cases kind : h.kind with
    | standardWrite =>
      rw [kind] at inner
      let e : Activation := ⟨h, owner, _, some change, none, arises.later held⟩
      exact calls e rfl rfl held (e.bind_scope.symm.trans inner)
    | invertedWrite =>
      rw [kind] at inner
      let e : Activation := ⟨h, owner, _, none, none, arises.later held⟩
      exact calls e rfl rfl held (e.bind_scope.symm.trans inner)
    | standardRead | tracedRead =>
      rw [kind] at serves
      exact absurd (serves.1 rfl) nofun

namespace Activation
variable {e e₁ e₂ : Activation} {w : World} {o : ObjectId} {key : ScopeKey}

/-! ### Whose layer is whose -/

theorem opened_of_slot (slot : e.slot?.isSome = true) : e.opened = e.start := if_pos slot

theorem slot_cases (e : Activation) :
    (∃ l, e.slot? = some l ∧ e.scope.locals = l ∧ e.opened = e.start) ∨
      e.slot? = none ∧ e.scope.locals = ⟨e.start.layers.size⟩ ∧
        e.opened = (e.start.addLayer .empty).1 := by
  unfold scope opened
  cases e.slot? with
  | some l => exact .inl ⟨l, rfl, rfl, rfl⟩
  | none => exact .inr ⟨rfl, rfl, rfl⟩

theorem locals_lt (e : Activation) : e.scope.locals.index < e.opened.layers.size := by
  rcases e.slot_cases with ⟨l, slot, locals, opened⟩ | ⟨-, locals, opened⟩
  · rw [locals, opened]
    exact e.arises.slots.inside slot
  · rw [locals, opened]
    exact Nat.lt_of_lt_of_eq (Nat.lt_succ_self _) (Array.size_push _).symm

/-- The locals of an activation are a slot only if they were one when the scope was built, and then
they remain that slot. -/
theorem slot_iff (later : e.opened.Later w) : w.localStorage? o key = some e.scope.locals ↔
    e.owner = o ∧ e.handler.key = key ∧ e.slot?.isSome = true := by
  have allots := later.allots
  rcases e.slot_cases with ⟨l, slot, locals, opened⟩ | ⟨slot, locals, opened⟩
  · rw [opened] at allots later
    have kept : w.localStorage? e.owner e.handler.key = some l := allots.kept slot
    rw [locals, slot]
    constructor
    · intro here
      obtain ⟨owner, key⟩ := (e.arises.later later).slots.single kept here
      exact ⟨owner, key, rfl⟩
    · rintro ⟨rfl, rfl, -⟩
      exact kept
  · rw [locals, slot]
    refine ⟨fun here => ?_, fun both => nomatch both.2.2⟩
    have size : e.opened.layers.size = e.start.layers.size + 1 := by
      rw [opened]
      exact Array.size_push _
    -- neither an old slot nor one that became a slot later
    rcases allots.fresh here with before | ⟨new, -⟩
    · rw [opened] at before
      exact absurd (e.arises.slots.inside before) (Nat.lt_irrefl _)
    · rw [size] at new
      exact absurd new (Nat.lt_irrefl _)

theorem locals_eq_iff_of_before (before : e₁.Before e₂) :
    e₁.scope.locals = e₂.scope.locals ↔ e₁.Shares e₂ := by
  rcases e₂.slot_cases with ⟨l, slot, locals, -⟩ | ⟨slot, locals, -⟩
  · have found : e₂.slot? = some e₁.scope.locals ↔ e₁.owner = e₂.owner ∧
        e₁.handler.key = e₂.handler.key ∧ e₁.slot?.isSome = true := slot_iff before
    rw [slot, Option.some_inj] at found
    rw [locals, eq_comm, found, Shares, slot, Option.isSome_some]
    simp only [and_true]
  · unfold Shares
    rw [slot, locals]
    refine ⟨fun same => ?_, fun both => nomatch both.2.2.2⟩
    have less := Nat.lt_of_lt_of_le e₁.locals_lt before.allots.layers
    rw [same] at less
    exact absurd less (Nat.lt_irrefl _)

theorem Shares.symm (shares : e₁.Shares e₂) : e₂.Shares e₁ :=
  ⟨shares.1.symm, shares.2.1.symm, shares.2.2.2, shares.2.2.1⟩

/-- Two activations have their locals in common if and only if they found the same slot. -/
theorem locals_eq_iff (order : e₁.Before e₂ ∨ e₂.Before e₁) :
    e₁.scope.locals = e₂.scope.locals ↔ e₁.Shares e₂ := by
  rcases order with before | before
  · exact locals_eq_iff_of_before before
  · rw [eq_comm, locals_eq_iff_of_before before]
    exact ⟨.symm, .symm⟩

end Activation

/-- What a scope has to offer for a name that is neither a local nor an attribute. -/
def Scope.beyond (s : Scope) (name : String) : Except BindError Value :=
  match s.environment.globals.get? name with
  | some v => .ok v
  | none => match s.environment.builtins.get? name with
    | some v => .ok v
    | none => .error (.nameResolution name)

namespace World
variable {w w' : World} {o p : ObjectId} {s s' : Scope} {t m : String} {x : Option Value}

/-! ### Temporaries -/

/-- A name that is not reserved and that no object of the owner's chain has. -/
def Temporary (w : World) (o : ObjectId) (name : String) : Prop :=
  isReserved name = false ∧ ∀ chain, w.Lineage o chain → ∀ q ∈ chain, w.hasAttribute q name = false

/-- The local of a scope. -/
def local? (w : World) (s : Scope) (name : String) : Option Value := (w.layer s.locals).get? name

/-- A local has got a value, or has been deleted. -/
def putLocal (w : World) (s : Scope) (name : String) (x : Option Value) : World :=
  w.modifyLayer s.locals fun d => x.elim (d.erase name) (d.insert name)

theorem Descends.temporary_iff (descends : w.Descends) :
    w.Temporary o t ↔ isReserved t = false ∧ w.nearest? o t = none := by
  obtain ⟨chain, lineage⟩ := descends.exists_lineage o
  rw [lineage.nearest? descends, List.find?_eq_none]
  refine and_congr_right fun _ => ⟨fun lacks q mem => ?_, fun lacks chain' other q mem => ?_⟩
  · rw [lacks chain lineage q mem]
    exact Bool.false_ne_true
  · cases lineage.unique other
    exact Bool.eq_false_iff.2 (lacks q mem)

theorem setName_of_temporary (descends : w.Descends) (temporary : w.Temporary s.owner t)
    (v : Value) (n : Nat) :
    perform (n + 1) Unit (.setName s t v) w = some (.ok (), w.putLocal s t (some v)) := by
  obtain ⟨free, nowhere⟩ := descends.temporary_iff.1 temporary
  rw [perform_setName, setName_of_none _ free nowhere]
  rfl

theorem delName_eq (w : World) (s : Scope) (t : String) (n : Nat) :
    perform (n + 1) Unit (.delName s t) w =
      if (w.local? s t).isSome then some (.ok (), w.putLocal s t none)
      else some (.error (.nameResolution t), w) := by
  have run : perform (n + 1) Unit (.delName s t) w = delName s t w := rfl
  rw [run, local?]
  cases here : (w.layer s.locals).get? t with
  | none => exact delName_of_none here
  | some v => exact delName_of_some here

/-- Reading a temporary comes to the local, or else to what lies beyond. -/
theorem getName_of_temporary (descends : w.Descends) (temporary : w.Temporary s.owner t) (n : Nat) :
    perform (n + 1) Value (.getName s t) w =
      some ((w.local? s t).elim (s.beyond t) Except.ok, w) := by
  obtain ⟨free, nowhere⟩ := descends.temporary_iff.1 temporary
  refine (getName_of_plain _ (reserved?_of_free free)).trans ?_
  rw [local?]
  cases (w.layer s.locals).get? t with
  | some v => rfl
  | none =>
    dsimp only
    rw [outerName_of_none _ nowhere, Scope.beyond]
    cases s.environment.globals.get? t with
    | some v => rfl
    | none => cases s.environment.builtins.get? t <;> rfl

/-! ### What changes with a local -/

theorem local?_putLocal (there : s.locals.index < w.layers.size) : (w.putLocal s t x).local? s' m =
    if s.locals = s'.locals ∧ t = m then x else w.local? s' m := by
  rw [local?, local?, putLocal, layer_modifyLayer]
  by_cases same : s.locals = s'.locals
  · rw [if_pos ⟨same, there⟩]
    cases x with
    | none => simp only [Option.elim_none, Dict.get?_erase, same, true_and]
    | some v => simp only [Option.elim_some, Dict.get?_insert, same, true_and]
  · rw [if_neg fun both => same both.1, if_neg fun both => same both.1]

/-- Nothing is held afterwards but what was there. -/
theorem confines_putLocal (held : ∀ v, x = some v → ∀ h ∈ v.handles, w.isLive h = true) :
    w.Confines (w.putLocal s t x) where
  roots h root := .inl (isLive_of_mem_roots root)
  edges {g h} edge := by
    obtain ⟨holder, mem⟩ := edge
    have here : g ∈ w.holders := by
      rw [mem_holders] at holder ⊢
      cases g with
      | layer l => exact Nat.lt_of_lt_of_eq holder Array.size_modify
      | _ => exact holder
    cases g with
    | layer l =>
      simp only [holds, putLocal, layer_modifyLayer] at mem
      split at mem
      · cases x with
        | none =>
          obtain ⟨y, entry, inside⟩ := List.mem_flatMap.1 mem
          exact .inl ⟨here, List.mem_flatMap.2 ⟨y, List.mem_of_mem_filter entry, inside⟩⟩
        | some v =>
          exact (mem_handles_insert mem).imp (fun old => ⟨here, old⟩) (held v rfl h)
      · exact .inl ⟨here, mem⟩
    | _ => exact .inl ⟨here, mem⟩

theorem later_putLocal (w : World) : w.Later (w.putLocal s t x) :=
  .step (.quiet (w.quiet_modifyLayer s.locals _))

/-- No parent that was lost is brought back. -/
theorem parent?_of_putLocal (descends : w.Descends)
    (held : ∀ v, x = some v → ∀ h ∈ v.handles, w.isLive h = true)
    (parent : (w.putLocal s t x).parent? o = some p) : w.parent? o = some p := by
  obtain ⟨declared, live⟩ := Option.filter_eq_some_iff.1 parent
  refine Option.filter_eq_some_iff.2 ⟨declared, ?_⟩
  by_contra gone
  refine isLive_iff.1 live ((confines_putLocal held).dropped ?_ fun young => ?_)
  · by_contra stays
    exact gone (isLive_iff.2 stays)
  · obtain ⟨d, known, older⟩ := Option.bind_eq_some_iff.1 declared
    have inside := (Array.getElem?_eq_some_iff.1 (w.declared?_eq_some.1 known)).1
    exact absurd (Nat.lt_trans (descends.parent known older) inside) (Nat.not_lt_of_le young)

/-- What is a temporary remains one. -/
theorem Temporary.putLocal (descends : w.Descends)
    (held : ∀ v, x = some v → ∀ h ∈ v.handles, w.isLive h = true) (temporary : w.Temporary o m) :
    (w.putLocal s t x).Temporary o m := by
  have descends' : (w.putLocal s t x).Descends := descends.of_objects rfl
  obtain ⟨free, nowhere⟩ := descends.temporary_iff.1 temporary
  refine descends'.temporary_iff.2 ⟨free, ?_⟩
  have entity (o : ObjectId) : w.entity? o = (w.putLocal s t x).entity? o := rfl
  have back := (within_mono entity (parent?_of_putLocal descends held) m (2 * o.index + 2) o).2
  change (nearest? _ o m).isSome = true → (w.nearest? o m).isSome = true at back
  rw [nowhere] at back
  exact Option.not_isSome_iff_eq_none.1 fun found => nomatch back found

/-- A scope that is built right after a local of another has changed is the one that would have been
built right before. -/
theorem scope_putLocal {h : Handler} {u : World} (there : s.locals.index < w.layers.size)
    (run : h.scope o w = some (.ok s', u)) :
    h.scope o (w.putLocal s t x) = some (.ok s', u.putLocal s t x) := by
  have size : (w.putLocal s t x).layers.size = w.layers.size := Array.size_modify
  have layers (f : Dict String Value → Dict String Value) :
      (w.layers.modify s.locals.index f).push .empty =
        (w.layers.push .empty).modify s.locals.index f := by
    refine Array.ext_getElem? fun i => ?_
    simp only [Array.getElem?_push, Array.getElem?_modify, Array.size_modify]
    by_cases last : i = w.layers.size
    · rw [if_pos last, if_pos last, if_neg (by omega)]
    · rw [if_neg last, if_neg last]
  have added : ((w.putLocal s t x).addLayer .empty).1 = (w.addLayer .empty).1.putLocal s t x :=
    congrArg (fun layers => {w with layers := layers}) (layers _)
  have slot : (w.putLocal s t x).localStorage? o h.key = w.localStorage? o h.key := rfl
  rw [Handler.scope_apply] at run ⊢
  cases run
  rw [slot, size, added]
  split <;> rfl

/-- A chain whose objects keep their parents is the chain that it was, and has the attributes it
had. -/
theorem Lineage.putLocal {chain : List ObjectId} (descends : w.Descends)
    (lineage : (w.putLocal s t x).Lineage o chain)
    (live : (w.putLocal s t x).isLive (.object o) = true)
    (kept : ∀ o, (w.putLocal s t x).isLive (.object o) = true →
      (w.putLocal s t x).parent? o = w.parent? o) :
    w.Lineage o chain ∧
      ∀ q ∈ chain, ∀ name, w.hasAttribute q name = (w.putLocal s t x).hasAttribute q name := by
  have descends' : (w.putLocal s t x).Descends := descends.of_objects rfl
  by_cases old : o.index < w.objects.size
  · have alike : (w.putLocal s t x).Resembles w :=
      ⟨fun _ => .same _, fun _ live => (kept _ live).symm⟩
    exact alike.lineage descends' lineage old live
  · have nobody : w.entity? o = none := Array.getElem?_eq_none (Nat.le_of_not_lt old)
    have root : w.parent? o = none := by
      rw [parent?, declared?, nobody]
      rfl
    have root' : (w.putLocal s t x).parent? o = none := (kept o live).trans root
    cases lineage with
    | next parent _ => cases root'.symm.trans parent
    | last _ =>
      refine ⟨.last root, fun q mem name => ?_⟩
      cases List.mem_singleton.1 mem
      rw [descends.hasAttribute_eq, descends'.hasAttribute_eq]
      have nobody' : (w.putLocal s t x).entity? o = none := nobody
      rw [nobody, nobody']

/-- A name stands for what it stood for, unless it is the local that has changed. -/
theorem sources_putLocal {chain : List ObjectId} (there : s.locals.index < w.layers.size)
    (other : ¬(s.locals = s'.locals ∧ t = m))
    (same : ∀ q ∈ chain, w.hasAttribute q m = (w.putLocal s t x).hasAttribute q m) :
    (w.putLocal s t x).sources s' chain m = w.sources s' chain m := by
  have locals : (w.putLocal s t x).local? s' m = w.local? s' m := by
    rw [local?_putLocal there, if_neg other]
  have attributes : chain.filter (w.hasAttribute · m) =
      chain.filter ((w.putLocal s t x).hasAttribute · m) := List.filter_congr same
  unfold local? at locals
  unfold sources
  rw [locals, attributes]
  rfl

end World

/-- **Temporaries are shared by owner, key and slot.** Take two evaluations of handlers on objects,
the scope of one of which is built before that of the other: one may be nested in the other, or
follow it. They share a slot if they have the same owner and the same key, and each found that the
owner had a slot for the key when its scope was built. Wherever the first one sets or deletes a
temporary, this is what happens: the temporary becomes a local with that value, or ceases to be a
local if it was one. Whatever the second one then reads, a temporary comes to its own local of that
name, or else to what the module has. If that was not so already, the local of the second evaluation
is what the first has made of its own if and only if they share a slot. If they do, the two see the
same locals at every moment. If they do not, no local of the second is different. In either case
every object has the attributes and the slots it had, and the variables in a slot are as they were
but for the slot that the first evaluation found for itself. It makes no difference whether a scope
is built before or after. Temporaries remain temporaries, unless what is set was not held by
anybody. All other names stand for what they stood for, if everything held keeps the parent it has.
-/
theorem temporaries_shared_by_slot {e₁ e₂ : Activation} (order : e₁.Before e₂ ∨ e₂.Before e₁)
    {w : World} (running : e₁.opened.Later w) {t : String} (temporary : w.Temporary e₁.owner t) :
    (∀ v n, perform (n + 1) Unit (.setName e₁.scope t v) w =
      some (.ok (), w.putLocal e₁.scope t (some v))) ∧
    (∀ n, perform (n + 1) Unit (.delName e₁.scope t) w =
      if (w.local? e₁.scope t).isSome then some (.ok (), w.putLocal e₁.scope t none)
      else some (.error (.nameResolution t), w)) ∧
    (∀ u m n, e₂.opened.Later u → u.Temporary e₂.owner m →
      perform (n + 1) Value (.getName e₂.scope m) u =
        some ((u.local? e₂.scope m).elim (e₂.scope.beyond m) Except.ok, u)) ∧
    (e₁.Shares e₂ → ∀ (u : World) m, u.local? e₂.scope m = u.local? e₁.scope m) ∧
    ∀ x w', w' = w.putLocal e₁.scope t x →
      (w.local? e₂.scope t ≠ x → (w'.local? e₂.scope t = x ↔ e₁.Shares e₂)) ∧
      (¬ e₁.Shares e₂ → ∀ m, w'.local? e₂.scope m = w.local? e₂.scope m) ∧
      (∀ o, w'.entity? o = w.entity? o) ∧
      (∀ o key, w'.localStorage? o key = w.localStorage? o key) ∧
      (∀ o key l, w.localStorage? o key = some l → w'.layer l ≠ w.layer l →
        e₁.owner = o ∧ e₁.handler.key = key ∧ e₁.slot?.isSome = true) ∧
      (∀ h o s u, Handler.scope h o w = some (.ok s, u) →
        h.scope o w' = some (.ok s, u.putLocal e₁.scope t x)) ∧
      ((∀ v, x = some v → ∀ h ∈ v.handles, w.isLive h = true) →
        ∀ o m, w.Temporary o m → w'.Temporary o m) ∧
      (w'.isLive (.object e₂.owner) = true →
        (∀ o, w'.isLive (.object o) = true → w'.parent? o = w.parent? o) →
        ∀ chain, w'.Lineage e₂.owner chain → w.Lineage e₂.owner chain ∧
          ∀ m, (e₁.Shares e₂ → m ≠ t) →
            w'.sources e₂.scope chain m = w.sources e₂.scope chain m) := by
  have arises : w.Arises := e₁.arises.later (e₁.later_opened.trans running)
  have there : e₁.scope.locals.index < w.layers.size :=
    Nat.lt_of_lt_of_le e₁.locals_lt running.allots.layers
  have shared := Activation.locals_eq_iff order
  refine ⟨fun v n => World.setName_of_temporary arises.descends temporary v n,
    fun n => w.delName_eq e₁.scope t n, fun u m n later temporary' => ?_, fun shares u m => ?_, ?_⟩
  · have arises' : u.Arises := e₂.arises.later (e₂.later_opened.trans later)
    exact World.getName_of_temporary arises'.descends temporary' n
  · rw [World.local?, World.local?, shared.2 shares]
  rintro x w' rfl
  refine ⟨fun differs => ?_, fun apart m => ?_, fun o => rfl, fun o key => rfl,
    fun o key l slot changed => ?_, fun h o s u run => World.scope_putLocal there run,
    fun held o m temporary' => temporary'.putLocal arises.descends held,
    fun live kept chain lineage => ?_⟩
  · rw [World.local?_putLocal there, ← shared]
    by_cases same : e₁.scope.locals = e₂.scope.locals
    · rw [if_pos ⟨same, rfl⟩]
      exact iff_of_true rfl same
    · rw [if_neg fun both => same both.1]
      exact iff_of_false differs same
  · rw [World.local?_putLocal there, if_neg fun both => apart (shared.1 both.1)]
  · rw [← e₁.slot_iff running, slot]
    by_contra other
    refine changed ?_
    rw [World.putLocal, World.layer_modifyLayer, if_neg]
    rintro ⟨rfl, -⟩
    exact other rfl
  · obtain ⟨lineage', same⟩ := lineage.putLocal arises.descends live kept
    refine ⟨lineage', fun m other => World.sources_putLocal there ?_ fun q mem => same q mem m⟩
    rintro ⟨locals, rfl⟩
    exact other (shared.1 locals) rfl

namespace lentParent

/-- A child whose parent is held by a temporary of another object only. -/
def session : Program Unit := do
  let p ← .request (.newObject
    { typeName := "Item", parent := none, attributes := .ofList [("x", .int 7)], members := []
      constants := .empty, storage := .empty, config := none })
  .request (.keep "p" (.object p))
  let o ← .request (.newObject
    { typeName := "Item", parent := none, attributes := .empty, members := [], constants := .empty
      storage := .ofList [(.given 5, .ofList [("n", .object p)])], config := none })
  .request (.keep "o" (.object o))
  let c ← .request (.newObject
    { typeName := "Item", parent := some p, attributes := .empty, members := []
      constants := .empty, storage := .empty, config := none })
  .request (.keep "c" (.object c))
  .request (.release .objects "p")
  let _ ← .request (.newFunction "f" ⟨.empty, .empty⟩ fun _ _ => return .null)

def start : World := (session.run (perform 12) (.initial #[])).elim (.initial #[]) Prod.snd

theorem arises : start.Arises := ((Reachable.start #[]).final 12 session).arises

/-- Finds the slot of the second object. -/
def writer : Activation :=
  ⟨⟨.standardRead, ⟨0⟩, .given 5⟩, ⟨1⟩, start, none, none, arises⟩

/-- Finds the same slot. -/
def fellow : Activation :=
  ⟨⟨.standardWrite, ⟨0⟩, .given 5⟩, ⟨1⟩, start, none, none, arises⟩

/-- Is about the child, which has no slots. -/
def reader : Activation :=
  ⟨⟨.standardRead, ⟨0⟩, .given 6⟩, ⟨2⟩, start, none, none, arises⟩

/-- The world after a new temporary has been set. -/
def noted : World := start.putLocal writer.scope "k" (some (.int 1))

/-- The world after the temporary that holds the parent has been replaced. -/
def after : World := reader.opened.putLocal writer.scope "n" (some (.int 1))

theorem slots_and_names : writer.slot?.isSome = true ∧ fellow.slot?.isSome = true ∧
    reader.slot?.isSome = false ∧ start.nearest? writer.owner "k" = none ∧
    start.local? fellow.scope "k" = none ∧
    reader.opened.nearest? writer.owner "n" = none ∧
    reader.opened.nearest? reader.owner "n" = none ∧
    ((perform 12 _ (.getName reader.scope "x") reader.opened).map
      (·.1 matches .ok (.int 7)) = some true) ∧
    ((perform 12 _ (.getName reader.scope "x") after).map
      (·.1 matches .error (.nameResolution "x")) = some true) := by
  decide +kernel

theorem writer_opened : writer.opened = start := by
  rw [Activation.opened_of_slot slots_and_names.1]
  simp only [writer]

theorem before_fellow : writer.Before fellow := by
  rw [Activation.Before, writer_opened]
  simp only [fellow]
  exact .refl start

theorem before_reader : writer.Before reader := by
  rw [Activation.Before, writer_opened]
  simp only [reader]
  exact .refl start

/-- What one evaluation sets, another that has found the same slot reads, and that of the child sees
nothing of it. -/
theorem fellow_reads :
    perform 12 Unit (.setName writer.scope "k" (.int 1)) start = some (.ok (), noted) ∧
    perform 12 Value (.getName fellow.scope "k") noted = some (.ok (.int 1), noted) ∧
    noted.local? reader.scope "k" = start.local? reader.scope "k" := by
  obtain ⟨slot, slot', own, nowhere, unset, -⟩ := slots_and_names
  have running : writer.opened.Later start := by
    rw [writer_opened]
    exact .refl start
  have temporary : start.Temporary writer.owner "k" :=
    arises.descends.temporary_iff.2 ⟨by decide, nowhere⟩
  have later : fellow.opened.Later noted := by
    rw [Activation.opened_of_slot slot', noted]
    simp only [fellow]
    exact start.later_putLocal
  obtain ⟨sets, -, reads, -, changes⟩ :=
    temporaries_shared_by_slot (.inl before_fellow) running temporary
  obtain ⟨seen, -, -, -, -, -, remains, -⟩ := changes (some (.int 1)) noted (by rw [noted])
  obtain ⟨-, -, -, -, changes'⟩ :=
    temporaries_shared_by_slot (.inl before_reader) running temporary
  obtain ⟨-, apart, -⟩ := changes' (some (.int 1)) noted (by rw [noted])
  refine ⟨?_, ?_, apart (fun shares => ?_) "k"⟩
  · rw [noted]
    exact sets (.int 1) 11
  · have here : noted.local? fellow.scope "k" = some (.int 1) :=
      (seen (by rw [unset]; exact nofun)).2 ⟨rfl, rfl, slot, slot'⟩
    have temporary' : noted.Temporary fellow.owner "k" :=
      remains (fun v same h mem => by cases same; cases mem) _ _ temporary
    rw [reads noted "k" 11 later temporary', here]
    rfl
  · rw [shares.2.2.2] at own
    cases own

/-- Nothing is shared, and the name that is set is a temporary of both. With the value that is
replaced the parent goes, and its attribute is no longer found. -/
theorem forgets_name : writer.Before reader ∧ ¬ writer.Shares reader ∧
    reader.opened.Temporary writer.owner "n" ∧ reader.opened.Temporary reader.owner "n" ∧
    (∀ n, perform (n + 1) Unit (.setName writer.scope "n" (.int 1)) reader.opened =
      some (.ok (), after)) ∧
    ((perform 12 _ (.getName reader.scope "x") reader.opened).map
      (·.1 matches .ok (.int 7)) = some true) ∧
    ((perform 12 _ (.getName reader.scope "x") after).map
      (·.1 matches .error (.nameResolution "x")) = some true) := by
  obtain ⟨-, -, own, -, -, nowhere, nowhere', reads, fails⟩ := slots_and_names
  have descends := (reader.arises.later reader.later_opened).descends
  have temporary : reader.opened.Temporary writer.owner "n" :=
    descends.temporary_iff.2 ⟨by decide, nowhere⟩
  refine ⟨before_reader, fun shares => ?_, temporary,
    descends.temporary_iff.2 ⟨by decide, nowhere'⟩, fun n => ?_, reads, fails⟩
  · rw [shares.2.2.2] at own
    cases own
  · rw [after]
    exact World.setName_of_temporary descends temporary _ n

end lentParent

end LiveBinding
