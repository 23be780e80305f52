import LiveBinding.Proofs.Veil

/-! Actions that do not show a tracer.

Two actions are run side by side, the first in a world with the tracer and the second in the same
world without it. Whenever the first ends, the second ends alike, and again their worlds differ in
nothing but the tracer. Sequences and brackets of such actions are such actions. -/
namespace LiveBinding

universe u₁

theorem modify_push {β : Type} (a : Array β) (x : β) (i : Nat) (f : β → β) :
    (a.push x).modify i f = (a.modify i f).push (if i = a.size then f x else x) := by
  apply Array.ext_getElem?
  intro j
  rw [Array.getElem?_modify, Array.getElem?_push, Array.getElem?_push, Array.getElem?_modify,
    Array.size_modify]
  by_cases last : j = a.size
  · subst last
    by_cases here : i = a.size
    · simp [here]
    · simp [here]
  · simp [last]

theorem modify_comm {β : Type} (a : Array β) {i j : Nat} (other : i ≠ j) (f g : β → β) :
    (a.modify i f).modify j g = (a.modify j g).modify i f := by
  apply Array.ext_getElem?
  intro k
  simp only [Array.getElem?_modify]
  by_cases first : i = k
  · have apart : j ≠ k := fun same => other (first.trans same.symm)
    rw [if_pos first, if_pos first, if_neg apart, if_neg apart]
  · rw [if_neg first, if_neg first]

namespace TracedCall
variable {T : TracedCall} {w w' u u' v : World} {α β : Type}

/-! ### What only the first world shows -/

/-- The tracer is there. -/
def Begun (T : TracedCall) (w : World) : Prop := T.tracer.index < w.tracers.size

/-- Nothing is lost of what the tracer has recorded. -/
structure Onward (T : TracedCall) (w u : World) : Prop where
  begun : T.Begun u
  record : (w.tracer T.tracer).handles ⊆ (u.tracer T.tracer).handles

namespace Onward

theorem of_eq (begun : T.Begun w) (tracers : u.tracers = w.tracers) : T.Onward w u where
  begun := by rwa [Begun, tracers]
  record := by
    rw [World.tracer, World.tracer, tracers]
    exact List.Subset.refl _

theorem refl (begun : T.Begun w) : T.Onward w w := .of_eq begun rfl

theorem trans (first : T.Onward w u) (next : T.Onward u v) : T.Onward w v where
  begun := next.begun
  record := List.Subset.trans first.record next.record

theorem modifyTracer {f : Tracer → Tracer} {t : TracerRef}
    (grows : t = T.tracer → ∀ x, x.handles ⊆ (f x).handles) (begun : T.Begun w) :
    T.Onward w (w.modifyTracer t f) where
  begun := by simpa only [Begun, World.modifyTracer, Array.size_modify] using begun
  record := by
    rw [World.tracer_modifyTracer]
    split
    · next same => exact grows same.1 _
    · exact List.Subset.refl _

theorem addTracer (x : Tracer) (begun : T.Begun w) : T.Onward w (w.addTracer x).1 where
  begun := by
    simp only [Begun, World.addTracer, Array.size_push] at begun ⊢
    omega
  record := by
    rw [World.tracer_addTracer, if_neg (Nat.ne_of_lt begun)]
    exact List.Subset.refl _

end Onward

/-- Whether others keep all that the tracer may record. -/
def sustains (T : TracedCall) (w : World) : Bool := T.held.all (w.keptWithin T.outer T.reach)

theorem sustains_iff : T.sustains w = true ↔ T.Sustained w := List.all_eq_true

/-! ### Recording -/

theorem mem_handles_record {x : Tracer} {d : Dependency} {h : Handle} :
    h ∈ (x.record d).handles ↔ h ∈ x.handles ∨ h = .object d.object := by
  unfold Tracer.record
  split
  · next known =>
    refine ⟨.inl, fun mem => mem.elim id fun same => ?_⟩
    rw [same]
    exact List.mem_cons_of_mem _ (List.mem_map_of_mem ((x.contains_iff d).1 known))
  · simp only [Tracer.handles, List.map_append, List.map_cons, List.map_nil, List.mem_cons,
      List.mem_append, List.not_mem_nil, or_false, or_assoc]

theorem handles_record (d : Dependency) {t : TracerRef} (_ : t = T.tracer) (x : Tracer) :
    x.handles ⊆ (x.record d).handles := fun _ mem => mem_handles_record.2 (.inl mem)

theorem veil_record (d : Dependency) (w : World) :
    T.veil (w.modifyTracer T.tracer (·.record d)) = T.veil w := by
  have drained (x : Tracer) : (x.record d).drain = x.drain := by
    unfold Tracer.record
    split <;> rfl
  simp only [veil, World.modifyTracer]
  congr 1
  apply Array.ext_getElem?
  intro i
  simp only [Array.getElem?_modify]
  split
  · rcases w.tracers[i]? with _ | x
    · rfl
    · exact congrArg some (drained x)
  · rfl

/-! ### Changes of both worlds -/

/-- Changes that touch neither tracers nor what is held, and no view. -/
structure Plain (T : TracedCall) (g : World → World) : Prop where
  veil : ∀ w, T.veil (g w) = g (T.veil w)
  views : ∀ w o p t, (g w).entity? o = some (.view p t) ↔ w.entity? o = some (.view p t)
  tracers : ∀ w, (g w).tracers = w.tracers
  held : ∀ w, (g w).held = w.held
  functions : ∀ w (i : Nat) x, w.functions[i]? = some x → (g w).functions[i]? = some x

/-- What a tracer can show in, and what must be there for it. -/
structure Exposed where
  objects : Array Entity
  tracers : Array Tracer
  functions : Array Function
  held : List Handle
  kept : Dict (Drawer × String) Kept
  log : Array LogEntry

/-- The world with this exposed. -/
def Exposed.on (x : Exposed) (w : World) : World :=
  { w with
    objects := x.objects
    tracers := x.tracers
    functions := x.functions
    held := x.held
    desk := {w.desk with kept := x.kept}
    log := x.log }

def Exposed.of (w : World) : Exposed :=
  ⟨w.objects, w.tracers, w.functions, w.held, w.desk.kept, w.log⟩

/-- A change of something else makes no difference to what is exposed. -/
theorem Plain.of_apart {g : World → World} (apart : ∀ w (x : Exposed), g (x.on w) = x.on (g w)) :
    T.Plain g := by
  have same (w : World) : g w = (Exposed.of w).on (g w) := apart w (.of w)
  refine
    { veil := fun w => ?_
      views := fun w o p t => ?_
      tracers := fun w => (congrArg World.tracers (same w)).trans rfl
      held := fun w => (congrArg World.held (same w)).trans rfl
      functions := fun w i x here => ?_ }
  · calc T.veil (g w) = T.veil ((Exposed.of w).on (g w)) := congrArg T.veil (same w)
      _ = (Exposed.of (T.veil w)).on (g w) := rfl
      _ = g ((Exposed.of (T.veil w)).on w) := (apart w _).symm
      _ = g (T.veil w) := rfl
  · rw [same w]
    rfl
  · rw [same w]
    exact here

/-- Changes are no views, so who is told of them is no secret. -/
theorem plain_tell (x : Observer) (change : ObjectId) : T.Plain fun w => w.tell x change where
  veil w := by
    unfold World.tell
    rw [T.change?_veil]
    rfl
  views _ _ _ _ := Iff.rfl
  tracers _ := rfl
  held _ := rfl
  functions _ _ _ := id

namespace Same
variable (same : T.Same w w')
include same

/-- Worlds that have changed alike, and not in what the tracer and operations hold. -/
theorem change (veiled : T.veil u = T.veil u')
    (views : ∀ o p, u'.entity? o = some (.view p (some T.tracer)) →
      u.entity? o = some (.view p (some T.tracer)))
    (tracers : u.tracers = w.tracers) (tracers' : u'.tracers = w'.tracers)
    (held : u.held = w.held)
    (functions : ∀ (i : Nat) x, w.functions[i]? = some x → u.functions[i]? = some x)
    (sustained : T.Sustained u) : T.Same u u' where
  veiled := veiled
  views := views
  record := by
    have record := same.record
    rwa [World.tracer, World.tracer, ← tracers, ← tracers'] at record
  begun := (Onward.of_eq same.begun tracers).begun
  recorded := by
    have recorded := same.recorded
    rwa [World.tracer, ← tracers] at recorded
  outer := held ▸ same.outer
  sustained := sustained
  bodies f body := by
    obtain ⟨g, here, blind⟩ := same.bodies f body
    exact ⟨g, functions _ g here, blind⟩

theorem plain {g : World → World} (plain : T.Plain g) (sustained : T.Sustained (g w)) :
    T.Same (g w) (g w') := by
  refine same.change ?_ (fun o p there => ?_) (plain.tracers w) (plain.tracers w') (plain.held w)
    (plain.functions w) sustained
  · rw [plain.veil, plain.veil, same.veiled]
  · exact (plain.views ..).2 (same.views o p ((plain.views ..).1 there))

theorem sizes : w'.tracers.size = w.tracers.size ∧ w'.objects.size = w.objects.size ∧
    w'.log.size = w.log.size := by
  have tracers := congrArg (·.tracers.size) same.veiled
  have objects := congrArg (·.objects.size) same.veiled
  have log := congrArg (·.log.size) same.veiled
  simp only [veil, Array.size_modify, Array.size_map] at tracers objects log
  exact ⟨tracers.symm, objects.symm, log.symm⟩

theorem addEntry (e : LogEntry) : T.Same (w.addEntry e) (w'.addEntry e) := by
  refine same.change ?_ same.views rfl rfl rfl (fun _ _ => id)
    (same.sustained.remains ⟨rfl, rfl⟩)
  have veil (w : World) : T.veil (w.addEntry e) =
      (T.veil w).addEntry (if T.entry = w.log.size then e.veil else e) := by
    simp only [TracedCall.veil, World.addEntry, modify_push]
  rw [veil, veil, same.veiled, same.sizes.2.2]

/-- Object by object, the same is added. -/
theorem addObject {x x' : Entity} (object : T.SameObject (some x) (some x'))
    (sustained : T.Sustained (w.addObject x).1) : T.Same (w.addObject x).1 (w'.addObject x').1 := by
  have veiled : x.veil T.tracer = x'.veil T.tracer := by
    cases object with
    | same => rfl
    | view p => simp [Entity.veil]
  have size := same.sizes.2.1
  refine same.change ?_ (fun o p there => ?_) rfl rfl rfl (fun _ _ => id) sustained
  · have veil (w : World) (x : Entity) : T.veil (w.addObject x).1 =
        ((T.veil w).addObject (x.veil T.tracer)).1 := by
      simp only [TracedCall.veil, World.addObject, Array.map_push]
    rw [veil, veil, same.veiled, veiled]
  · have views := same.views o p
    simp only [World.entity?, World.addObject, Array.getElem?_push] at there views ⊢
    rw [size] at there
    split at there
    · next last =>
      cases there
      rw [if_pos last]
      cases object with
      | same => rfl
    · next old =>
      rw [if_neg old]
      exact views there

theorem addTracer (x : Tracer) : T.Same (w.addTracer x).1 (w'.addTracer x).1 := by
  have inside := same.begun
  have inside' := same.sizes.1 ▸ inside
  have added {w : World} (inside : T.tracer.index < w.tracers.size) :
      (w.addTracer x).1.tracer T.tracer = w.tracer T.tracer := by
    rw [World.tracer_addTracer, if_neg (Nat.ne_of_lt inside)]
  have veil {w : World} (inside : T.tracer.index < w.tracers.size) :
      T.veil (w.addTracer x).1 = ((T.veil w).addTracer x).1 := by
    simp only [TracedCall.veil, World.addTracer, modify_push, if_neg (Nat.ne_of_lt inside)]
  exact {
    veiled := by rw [veil inside, veil inside', same.veiled]
    views := same.views
    record := by
      rw [added inside, added inside']
      exact same.record
    begun := (Onward.addTracer x inside).begun
    recorded := by
      rw [added inside]
      exact same.recorded
    outer := same.outer
    sustained := same.sustained.remains ⟨rfl, rfl⟩
    bodies := same.bodies }

/-- Other tracers may change, alike in both worlds. -/
theorem modifyOther {t : TracerRef} (other : t ≠ T.tracer) (f : Tracer → Tracer) :
    T.Same (w.modifyTracer t f) (w'.modifyTracer t f) := by
  have apart : t.index ≠ T.tracer.index := fun h => other (congrArg TracerRef.mk h)
  have unchanged (w : World) : (w.modifyTracer t f).tracer T.tracer = w.tracer T.tracer := by
    rw [World.tracer_modifyTracer, if_neg fun h => other h.1]
  have veil (w : World) : T.veil (w.modifyTracer t f) = (T.veil w).modifyTracer t f := by
    simp only [TracedCall.veil, World.modifyTracer, modify_comm _ apart]
  exact {
    veiled := by rw [veil, veil, same.veiled]
    views := same.views
    record := by
      rw [unchanged, unchanged]
      exact same.record
    begun := (Onward.modifyTracer (fun hidden => absurd hidden other) same.begun).begun
    recorded := by
      rw [unchanged]
      exact same.recorded
    outer := same.outer
    sustained := same.sustained.remains ⟨rfl, rfl⟩
    bodies := same.bodies }

/-- What the tracer records leaves no trace but in its record. -/
theorem recordHere (d : Dependency)
    (recorded : ((w.modifyTracer T.tracer (·.record d)).tracer T.tracer).handles ⊆ T.held) :
    T.Same (w.modifyTracer T.tracer (·.record d)) w' where
  veiled := by rw [veil_record, same.veiled]
  views := same.views
  record :=
    List.Subset.trans same.record (Onward.modifyTracer (handles_record d) same.begun).record
  begun := (Onward.modifyTracer (handles_record d) same.begun).begun
  recorded := recorded
  outer := same.outer
  sustained := same.sustained.remains ⟨rfl, rfl⟩
  bodies := same.bodies

theorem recordBoth (t : TracerRef) (d : Dependency)
    (recorded : ((w.modifyTracer t (·.record d)).tracer T.tracer).handles ⊆ T.held) :
    T.Same (w.modifyTracer t (·.record d)) (w'.modifyTracer t (·.record d)) := by
  by_cases hidden : t = T.tracer
  · subst hidden
    have first := same.recordHere d recorded
    refine { first with veiled := ?_, record := ?_ }
    · rw [veil_record, veil_record, same.veiled]
    · have inside := same.begun
      have inside' := same.sizes.1 ▸ inside
      rw [World.tracer_modifyTracer, World.tracer_modifyTracer, if_pos ⟨rfl, inside'⟩,
        if_pos ⟨rfl, inside⟩]
      intro h mem
      rw [mem_handles_record] at mem ⊢
      exact mem.imp_left fun mem => same.record mem
  · exact same.modifyOther hidden _

end Same

end TracedCall

theorem TracedCall.plain_modifyDeclared {T : TracedCall} (o : ObjectId) (f : Declared → Declared) :
    T.Plain (·.modifyDeclared o f) where
  veil w := by
    simp only [veil, World.modifyDeclared]
    congr 1
    apply Array.ext_getElem?
    intro i
    simp only [Array.getElem?_map, Array.getElem?_modify]
    split
    · rcases w.objects[i]? with _ | d | c | ⟨p, t⟩ <;> rfl
    · rfl
  views w p q t := by
    rw [World.entity?_modifyDeclared]
    split
    · rcases w.entity? p with _ | d | c | ⟨p', t'⟩ <;> simp
    · rfl
  tracers _ := rfl
  held _ := rfl
  functions _ _ _ := id

/-! ### Actions side by side -/

/-- Whenever the first action ends in a world with the tracer, the second ends alike in the world
without it, if others keep by then all that the tracer has recorded. Who keeps it may be another,
but not where the action is to be `steady`. -/
structure Action.VeiledAs {α : Type} (T : TracedCall) (steady : Prop) (a b : Action α) : Prop where
  onward : ∀ {w u : World} {r : Except BindError α}, T.Begun w → a w = some (r, u) → T.Onward w u
  follows : ∀ {w w' u : World} {r : Except BindError α}, T.Same w w' → a w = some (r, u) →
    (u.tracer T.tracer).handles ⊆ T.held → T.Sustained u →
      ∃ u', b w' = some (r, u') ∧ T.Same u u'
  rests : steady → ∀ {w u : World} {r : Except BindError α}, T.Begun w → a w = some (r, u) →
    (T.Sustained u ↔ T.Sustained w)

/-- The actions go side by side, and nothing that the tracer may record is let go. -/
abbrev Action.Veiled {α : Type} (T : TracedCall) (a b : Action α) : Prop := a.VeiledAs T True b

/-- The actions go side by side if nothing has been let go in the end. -/
abbrev Action.Loose {α : Type} (T : TracedCall) (a b : Action α) : Prop := a.VeiledAs T False b

namespace Action.VeiledAs
open TracedCall
variable {T : TracedCall} {k : Prop} {α β : Type} {a b : Action α} {f g : α → Action β}
  {w w' u : World}

theorem congr {a' b' : Action α} (left : ∀ w, a w = a' w) (right : ∀ w, b w = b' w)
    (veiled : a'.VeiledAs T k b') : a.VeiledAs T k b := by
  rwa [show a = a' from funext left, show b = b' from funext right]

/-- Whatever is asked for, a steady action does. -/
theorem any (veiled : a.Veiled T b) : a.VeiledAs T k b :=
  {veiled with rests := fun _ => veiled.rests trivial}

/-! #### Elementary actions -/

theorem never (refuses : ∀ w, a w = none) : a.VeiledAs T k b where
  onward {w u r} _ run := by
    rw [refuses] at run
    cases run
  follows {w w' u r} _ run _ _ := by
    rw [refuses] at run
    cases run
  rests _ {w u r} _ run := by
    rw [refuses] at run
    cases run

theorem ofExcept (r : Except BindError α) :
    (Action.ofExcept r).VeiledAs T k (Action.ofExcept r) where
  onward begun run := by
    cases run
    exact .refl begun
  follows same run _ _ := by
    cases run
    exact ⟨_, rfl, same⟩
  rests _ {w u r} _ run := by
    cases run
    exact .rfl

theorem pure (x : α) : (Pure.pure x : Action α).VeiledAs T k (Pure.pure x) := ofExcept (.ok x)

theorem throw (e : BindError) : (Action.throw e : Action α).VeiledAs T k (Action.throw e) :=
  ofExcept (.error e)

theorem read {f g : World → α} (answer : ∀ {w w'}, T.Same w w' → g w' = f w) :
    (Action.read f).VeiledAs T k (Action.read g) where
  onward begun run := by
    cases run
    exact .refl begun
  follows {w w' u r} same run _ _ := by
    cases run
    exact ⟨w', by rw [Action.read, answer same], same⟩
  rests _ {w u r} _ run := by
    cases run
    exact .rfl

/-- The world changes, in one way with the tracer and in another without. -/
theorem update {f g : World → World} (onward : ∀ {w}, T.Begun w → T.Onward w (f w))
    (same : ∀ {w w'}, T.Same w w' → ((f w).tracer T.tracer).handles ⊆ T.held →
      T.Sustained (f w) → T.Same (f w) (g w'))
    (keepers : k → ∀ w : World, w.SameKeepers (f w)) :
    (Action.update f).VeiledAs T k (Action.update g) where
  onward begun run := by
    cases run
    exact onward begun
  follows before run recorded sustained := by
    cases run
    exact ⟨_, rfl, same before recorded sustained⟩
  rests steady {w u r} _ run := by
    cases run
    exact sustained_iff (keepers steady w)

theorem add {f g : World → World × α} (onward : ∀ {w}, T.Begun w → T.Onward w (f w).1)
    (same : ∀ {w w'}, T.Same w w' → T.Sustained (f w).1 →
      (g w').2 = (f w).2 ∧ T.Same (f w).1 (g w').1)
    (keepers : k → ∀ w : World, w.SameKeepers (f w).1) :
    (Action.add f).VeiledAs T k (Action.add g) where
  onward begun run := by
    cases run
    exact onward begun
  follows before run _ sustained := by
    cases run
    obtain ⟨answer, after⟩ := same before sustained
    exact ⟨_, congrArg (fun x => some (Except.ok x, _)) answer, after⟩
  rests steady {w u r} _ run := by
    cases run
    exact sustained_iff (keepers steady w)

theorem changing {g : World → World} (plain : T.Plain g)
    (keepers : k → ∀ w : World, w.SameKeepers (g w)) :
    (Action.update g).VeiledAs T k (Action.update g) :=
  update (fun {w} begun => .of_eq begun (plain.tracers w)) (fun same _ => same.plain plain) keepers

theorem adding {f : World → World × α} (plain : T.Plain fun w => (f w).1)
    (name : ∀ w, (f (T.veil w)).2 = (f w).2) (keepers : k → ∀ w : World, w.SameKeepers (f w).1) :
    (Action.add f).VeiledAs T k (Action.add f) :=
  add (fun {w} begun => .of_eq begun (plain.tracers w)) (fun same sustained =>
    ⟨same.answer (f := fun w => (f w).2) name, same.plain plain sustained⟩) keepers

theorem changing_apart {g : World → World} (apart : ∀ w (x : Exposed), g (x.on w) = x.on (g w))
    (keepers : k → ∀ w : World, w.SameKeepers (g w)) :
    (Action.update g).VeiledAs T k (Action.update g) :=
  changing (.of_apart apart) keepers

theorem adding_apart {f : World → World × α}
    (apart : ∀ w (x : Exposed), f (x.on w) = (x.on (f w).1, (f w).2))
    (keepers : k → ∀ w : World, w.SameKeepers (f w).1) :
    (Action.add f).VeiledAs T k (Action.add f) :=
  adding (.of_apart fun w x => congrArg Prod.fst (apart w x)) (fun w =>
    (congrArg Prod.snd (apart w (.of (T.veil w)))).trans rfl) keepers

theorem log (e : LogEntry) : (Action.log e).VeiledAs T k (Action.log e) :=
  update (fun begun => .of_eq begun rfl) (fun same _ _ => same.addEntry e) fun _ _ => ⟨rfl, rfl⟩

theorem addTracer (x : Tracer) :
    (Action.add (·.addTracer x)).VeiledAs T k (Action.add (·.addTracer x)) :=
  add (Onward.addTracer x) (fun same _ =>
    ⟨congrArg TracerRef.mk same.sizes.1, same.addTracer x⟩) fun _ _ => ⟨rfl, rfl⟩

theorem addObject {x x' : Entity} (object : T.SameObject (some x) (some x'))
    (keepers : k → ∀ w : World, w.SameKeepers (w.addObject x).1) :
    (Action.add (·.addObject x)).VeiledAs T k (Action.add (·.addObject x')) :=
  add (fun begun => .of_eq begun rfl) (fun same sustained =>
    ⟨congrArg ObjectId.mk same.sizes.2.1, same.addObject object sustained⟩) keepers

theorem record (t : TracerRef) (d : Dependency) :
    (Action.update (·.modifyTracer t (·.record d))).VeiledAs T k
      (Action.update (·.modifyTracer t (·.record d))) :=
  update (Onward.modifyTracer (handles_record d))
    (fun same recorded _ => same.recordBoth t d recorded) fun _ _ => ⟨rfl, rfl⟩

theorem drain {t : TracerRef} (apart : t ≠ T.tracer) :
    (Action.update (·.modifyTracer t Tracer.drain)).VeiledAs T k
      (Action.update (·.modifyTracer t Tracer.drain)) :=
  update (Onward.modifyTracer fun same => absurd same apart)
    (fun same _ _ => same.modifyOther apart _) fun _ _ => ⟨rfl, rfl⟩

/-! #### Sequences -/

/-- One action goes on with another, that is only known to be veiled for what the first can give.
What is kept before and after both has to be kept in between. -/
theorem bindOf {k₁ k₂ : Prop} {P : α → Prop} (first : a.VeiledAs T k₁ b)
    (gives : ∀ {w u x}, T.Begun w → a w = some (.ok x, u) → P x)
    (next : ∀ x, P x → (f x).VeiledAs T k₂ (g x)) (both : k → k₁ ∧ k₂)
    (between : ∀ {w m u x r}, T.Begun w → a w = some (.ok x, m) → f x m = some (r, u) →
      T.Sustained w → T.Sustained u → T.Sustained m) :
    (a >>= f).VeiledAs T k (b >>= g) where
  onward begun run := by
    rcases exists_of_bind run with ⟨e, failed, _⟩ | ⟨x, w₁, succeeded, rest⟩
    · exact first.onward begun failed
    · have before := first.onward begun succeeded
      exact before.trans ((next x (gives begun succeeded)).onward before.begun rest)
  follows same run recorded sustained := by
    rcases exists_of_bind run with ⟨e, failed, rfl⟩ | ⟨x, w₁, succeeded, rest⟩
    · obtain ⟨u', also, after⟩ := first.follows same failed recorded sustained
      exact ⟨u', by rw [bind_apply, also], after⟩
    · have goes := next x (gives same.begun succeeded)
      have onward := goes.onward (first.onward same.begun succeeded).begun rest
      obtain ⟨w₁', also, middle⟩ := first.follows same succeeded
        (List.Subset.trans onward.record recorded)
        (between same.begun succeeded rest same.sustained sustained)
      obtain ⟨u', ends, after⟩ := goes.follows middle rest recorded sustained
      exact ⟨u', by rw [bind_apply, also]; exact ends, after⟩
  rests steady {w u r} begun run := by
    rcases exists_of_bind run with ⟨e, failed, rfl⟩ | ⟨x, w₁, succeeded, rest⟩
    · exact first.rests (both steady).1 begun failed
    · have before := first.onward begun succeeded
      have goes := next x (gives begun succeeded)
      exact (goes.rests (both steady).2 before.begun rest).trans
        (first.rests (both steady).1 begun succeeded)

/-- What a steady action ends with was there before it. -/
theorem seqOf {P : α → Prop} (first : a.VeiledAs T k b)
    (gives : ∀ {w u x}, T.Begun w → a w = some (.ok x, u) → P x)
    (next : ∀ x, P x → (f x).Veiled T (g x)) : (a >>= f).VeiledAs T k (b >>= g) :=
  bindOf first gives next (fun steady => ⟨steady, trivial⟩) fun begun succeeded rest _ sustained =>
    ((next _ (gives begun succeeded)).rests trivial (first.onward begun succeeded).begun rest).1
      sustained

theorem seq (first : a.VeiledAs T k b) (next : ∀ x, (f x).Veiled T (g x)) :
    (a >>= f).VeiledAs T k (b >>= g) :=
  seqOf (P := fun _ => True) first (fun _ _ => trivial) fun x _ => next x

/-- What is there before a steady action is there after it. -/
theorem after (first : a.Veiled T b) (next : ∀ x, (f x).VeiledAs T k (g x)) :
    (a >>= f).VeiledAs T k (b >>= g) :=
  bindOf (P := fun _ => True) first (fun _ _ => trivial) (fun x _ => next x)
    (fun steady => ⟨trivial, steady⟩) fun begun succeeded _ sustained _ =>
      (first.rests trivial begun succeeded).2 sustained

/-- Nothing that is there before an action that only adds something is lost by it. -/
theorem afterAdding (first : a.Loose T b)
    (adds : ∀ {w m r}, T.Begun w → a w = some (r, m) → T.Sustained w → T.Sustained m)
    (next : ∀ x, (f x).Loose T (g x)) : (a >>= f).Loose T (b >>= g) :=
  bindOf (P := fun _ => True) first (fun _ _ => trivial) (fun x _ => next x) False.elim
    fun begun succeeded _ sustained _ => adds begun succeeded sustained

theorem attempt (veiled : a.VeiledAs T k b) : a.attempt.VeiledAs T k b.attempt where
  onward begun run := by
    obtain ⟨r', ended, _⟩ := exists_of_attempt run
    exact veiled.onward begun ended
  follows same run recorded sustained := by
    obtain ⟨r', ended, rfl⟩ := exists_of_attempt run
    obtain ⟨u', also, after⟩ := veiled.follows same ended recorded sustained
    exact ⟨u', by rw [attempt_apply, also], after⟩
  rests steady {w u r} begun run := by
    obtain ⟨r', ended, _⟩ := exists_of_attempt run
    exact veiled.rests steady begun ended

theorem mapError_eq (h : BindError → BindError) (a : Action α) :
    a.mapError h = a.attempt >>= fun r => Action.ofExcept (r.mapError h) := by
  funext w
  simp only [Action.mapError, bind_apply, attempt_apply]
  rcases a w with _ | ⟨_ | x, u⟩ <;> rfl

theorem mapError (h : BindError → BindError) (veiled : a.VeiledAs T k b) :
    (a.mapError h).VeiledAs T k (b.mapError h) := by
  rw [mapError_eq, mapError_eq]
  exact seq veiled.attempt fun r => ofExcept _

/-- The tracer records something before the first action goes on. -/
theorem recordHere (d : Dependency) {f : Unit → Action α} (next : (f ()).Veiled T b) :
    (Action.update (·.modifyTracer T.tracer (·.record d)) >>= f).Veiled T b where
  onward begun run :=
    have records := Onward.modifyTracer (t := T.tracer) (handles_record d) begun
    records.trans (next.onward records.begun run)
  follows same run recorded sustained := by
    have records := Onward.modifyTracer (t := T.tracer) (handles_record d) same.begun
    have sofar := (next.onward records.begun run).record
    exact next.follows (same.recordHere d (List.Subset.trans sofar recorded)) run recorded sustained
  rests _ {w u r} begun run := by
    have records := Onward.modifyTracer (t := T.tracer) (handles_record d) begun
    have kept : w.SameKeepers (w.modifyTracer T.tracer (·.record d)) := ⟨rfl, rfl⟩
    exact (next.rests trivial records.begun run).trans (sustained_iff kept)

/-- Goes on by something that is the same in both worlds. -/
theorem choosing {ι : Type u₁} {f : World → ι} {g h : ι → Action α}
    (answer : ∀ {w w'}, T.Same w w' → f w' = f w) (next : ∀ x, (g x).VeiledAs T k (h x)) :
    Action.VeiledAs T k (fun w => g (f w) w) (fun w => h (f w) w) where
  onward begun run := (next _).onward begun run
  follows {w w' u r} same run recorded sustained := by
    obtain ⟨u', also, after⟩ := (next (f w)).follows same run recorded sustained
    exact ⟨u', by rw [answer same]; exact also, after⟩
  rests steady {w u r} begun run := (next (f w)).rests steady begun run

/-- Goes on by something that may be there, and otherwise in another way. -/
theorem optional {ι : Type u₁} {f : World → Option ι} {a' b' : Action α} {g h : ι → Action α}
    (same : ∀ w, f (T.veil w) = f w) (left : ∀ w, a' w = (f w).elim a g w)
    (right : ∀ w, b' w = (f w).elim b h w) (missing : a.VeiledAs T k b)
    (found : ∀ x, (g x).VeiledAs T k (h x)) : a'.VeiledAs T k b' := by
  refine .congr left right (choosing (f := f) (g := (·.elim a g)) (h := (·.elim b h))
    (fun worlds => worlds.answer (f := f) same) fun x => ?_)
  cases x with
  | none => exact missing
  | some x => exact found x

theorem reading {f : World → α} {g h : α → Action β} (answer : ∀ {w w'}, T.Same w w' → f w' = f w)
    (next : ∀ x, (g x).VeiledAs T k (h x)) :
    (Action.read f >>= g).VeiledAs T k (Action.read f >>= h) :=
  choosing answer next

theorem readingObject {o : ObjectId} {g h : Option Entity → Action β}
    (next : ∀ x x', T.SameObject x x' → (g x).VeiledAs T k (h x')) :
    (Action.read (·.entity? o) >>= g).VeiledAs T k (Action.read (·.entity? o) >>= h) where
  onward begun run := (next _ _ (.same _)).onward begun run
  follows same run recorded sustained :=
    (next _ _ (same.object o)).follows same run recorded sustained
  rests steady := (next _ _ (.same _)).rests steady

/-- An action that ends only where what the tracer may record is kept before and after it. -/
theorem sustained (P : World → World → Bool)
    (checks : ∀ w u, P w u = true → T.Sustained w ∧ T.Sustained u) (veiled : a.VeiledAs T k b) :
    Action.Veiled T (fun w => (a w).filter fun x => P w x.2) b where
  onward begun run := veiled.onward begun (Option.filter_eq_some_iff.1 run).1
  follows same run recorded sustained :=
    veiled.follows same (Option.filter_eq_some_iff.1 run).1 recorded sustained
  rests _ {w u r} _ run := by
    have kept := checks w u (Option.filter_eq_some_iff.1 run).2
    exact iff_of_true kept.2 kept.1

/-! #### Brackets -/

theorem within {enter enter' : World → World} {leave leave' : World → World → World}
    (tracers : ∀ w, (enter w).tracers = w.tracers)
    (tracers' : ∀ w u, (leave w u).tracers = u.tracers)
    (keepers : ∀ w : World, w.SameKeepers (enter w))
    (keepers' : ∀ w u : World, u.SameKeepers (leave w u))
    (into : ∀ {w w'}, T.Same w w' → T.Same (enter w) (enter' w'))
    (out : ∀ {w w' u u'}, T.Same w w' → T.Same u u' → T.Same (leave w u) (leave' w' u'))
    (inner : a.VeiledAs T k b) : (a.within enter leave).VeiledAs T k (b.within enter' leave') where
  onward {w u r} begun run := by
    obtain ⟨u₁, ended, rfl⟩ := exists_of_within run
    have entered : T.Onward w (enter w) := .of_eq begun (tracers w)
    have between := entered.trans (inner.onward entered.begun ended)
    exact between.trans (.of_eq between.begun (tracers' w u₁))
  follows {w w' u r} same run recorded sustained := by
    obtain ⟨u₁, ended, rfl⟩ := exists_of_within run
    rw [World.tracer, tracers'] at recorded
    obtain ⟨u₁', also, after⟩ := inner.follows (into same) ended recorded
      ((sustained_iff (keepers' w u₁)).1 sustained)
    exact ⟨leave' w' u₁', by rw [within_apply, also], out same after⟩
  rests steady {w u r} begun run := by
    obtain ⟨u₁, ended, rfl⟩ := exists_of_within run
    have entered : T.Onward w (enter w) := .of_eq begun (tracers w)
    exact ((sustained_iff (keepers' w u₁)).trans (inner.rests steady entered.begun ended)).trans
      (sustained_iff (keepers w))

theorem holding {hs hs' : List Handle}
    (handles : hs.filter (· ≠ .tracer T.tracer) = hs'.filter (· ≠ .tracer T.tracer))
    (inner : a.VeiledAs T k b) :
    (Action.holding hs a).VeiledAs T k (Action.holding hs' b) := by
  refine within (fun _ => rfl) (fun _ _ => rfl) (fun _ => ⟨rfl, rfl⟩) (fun _ _ => ⟨rfl, rfl⟩)
    (fun {w w'} same => ?_) (fun {w w' u u'} same after => ?_) inner
  · have held : w.held.filter (· ≠ .tracer T.tracer) = w'.held.filter (· ≠ .tracer T.tracer) :=
      congrArg World.held same.veiled
    have veil (w : World) (hs : List Handle) : T.veil {w with held := hs ++ w.held} =
        { T.veil w with
          held := hs.filter (· ≠ .tracer T.tracer) ++ w.held.filter (· ≠ .tracer T.tracer) } := by
      simp only [TracedCall.veil, List.filter_append]
    exact { same with
      veiled := by rw [veil, veil, same.veiled, handles, held]
      outer := List.Subset.trans same.outer (List.subset_append_right _ _)
      sustained := same.sustained.remains ⟨rfl, rfl⟩ }
  · have held : (T.veil w).held = (T.veil w').held := congrArg World.held same.veiled
    exact { after with
      veiled := by
        show {T.veil u with held := (T.veil w).held} = {T.veil u' with held := (T.veil w').held}
        rw [after.veiled, held]
      outer := same.outer
      sustained := after.sustained.remains ⟨rfl, rfl⟩ }

theorem holdingSame (hs : List Handle) (inner : a.VeiledAs T k b) :
    (Action.holding hs a).VeiledAs T k (Action.holding hs b) := holding rfl inner

theorem underLimit (limit : Nat) (inner : a.VeiledAs T k b) :
    (Action.underLimit limit a).VeiledAs T k (Action.underLimit limit b) := by
  refine within (fun _ => rfl) (fun _ _ => rfl) (fun _ => ⟨rfl, rfl⟩) (fun _ _ => ⟨rfl, rfl⟩)
    (fun {w w'} same => ?_) (fun {w w' u u'} same after => ?_) inner
  · exact same.plain (g := fun w => {w with limit := some limit}) (.of_apart fun _ _ => rfl)
      (same.sustained.remains ⟨rfl, rfl⟩)
  · rw [same.answer (f := World.limit) fun _ => rfl]
    exact after.plain (g := fun u => {u with limit := w.limit}) (.of_apart fun _ _ => rfl)
      (after.sustained.remains ⟨rfl, rfl⟩)

theorem nested (inner : a.VeiledAs T k b) :
    (Action.nested a).VeiledAs T k (Action.nested b) :=
  within (fun _ => rfl) (fun _ _ => rfl) (fun _ => ⟨rfl, rfl⟩) (fun _ _ => ⟨rfl, rfl⟩)
    (fun same => same.plain (g := fun w => {w with depth := w.depth + 1})
      (.of_apart fun _ _ => rfl) (same.sustained.remains ⟨rfl, rfl⟩))
    (fun _ after => after.plain (g := fun w => {w with depth := w.depth - 1})
      (.of_apart fun _ _ => rfl) (after.sustained.remains ⟨rfl, rfl⟩)) inner

theorem guarding (e : EngineRef) (name : String) (inner : a.VeiledAs T k b) :
    (Action.guarding e name a).VeiledAs T k (Action.guarding e name b) := by
  have up {w : World} (P : World → Prop) (stays : P w)
      (set : P (w.modifyEngine e fun g => {g with guards := name :: g.guards})) :
      P (w.guard e name) := by
    unfold World.guard
    split
    · exact stays
    · exact set
  have down {w u : World} (P : World → Prop) (stays : P u)
      (set : P (u.modifyEngine e fun g => {g with guards := g.guards.erase name})) :
      P (w.unguard u e name) := by
    unfold World.unguard
    split
    · exact stays
    · exact set
  refine within (fun w => up (·.tracers = w.tracers) rfl rfl)
    (fun _ u => down (·.tracers = u.tracers) rfl rfl)
    (fun w => up w.SameKeepers ⟨rfl, rfl⟩ (w.sameKeepers_modifyEngine e fun _ => rfl))
    (fun _ u => down u.SameKeepers ⟨rfl, rfl⟩ (u.sameKeepers_modifyEngine e fun _ => rfl))
    (fun {w w'} same => ?_) (fun {w w' u u'} same after => ?_) inner
  · have guards : w'.engine e = w.engine e := same.answer (f := (·.engine e)) fun _ => rfl
    show T.Same (w.guard e name) (w'.guard e name)
    unfold World.guard
    rw [guards]
    split
    · exact same
    · exact same.plain (g := (·.modifyEngine e fun g => {g with guards := name :: g.guards}))
        (.of_apart fun _ _ => rfl)
        (same.sustained.remains (w.sameKeepers_modifyEngine e fun _ => rfl))
  · have guards : w'.engine e = w.engine e := same.answer (f := (·.engine e)) fun _ => rfl
    show T.Same (w.unguard u e name) (w'.unguard u' e name)
    unfold World.unguard
    rw [guards]
    split
    · exact after
    · exact after.plain (g := (·.modifyEngine e fun g => {g with guards := g.guards.erase name}))
        (.of_apart fun _ _ => rfl)
        (after.sustained.remains (u.sameKeepers_modifyEngine e fun _ => rfl))

end Action.VeiledAs

end LiveBinding
