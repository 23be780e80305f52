import LiveBinding.Proofs.Network
import LiveBinding.Proofs.Subscriptions

/-! Steps that no attribute notices.

Most of what happens between two assignments is of no concern to attributes: things are held,
guards go up, the log grows, changes are built, observers that nobody holds are forgotten.
Such a step is slight; it slips by if no body was called meanwhile either. -/
namespace LiveBinding

/-- The call that an entry of the log is about: function, owner and number of arguments. -/
def LogEntry.call? : LogEntry → Option (String × ObjectId × Nat)
  | .callStarted f o n => some (f, o, n)
  | _ => none

namespace World
variable {n : Nat} {w w' w₁ w₂ w₃ : World}

/-- No value changes, no link is made, and no link that is held is forgotten. Tracers are as
they were, up to some number. -/
structure Slight (n : Nat) (w w' : World) : Prop where
  grows : w.Extends w'
  still : w.Still w'
  valueOf? : ∀ d, w'.valueOf? d = w.valueOf? d
  whole : w.Whole → w'.Whole
  forgotten : ∀ {o e name l r a}, w.engineOf? o = some e → l ∈ (w.engine e).linksOf name →
    (a, .link l) ∈ (w'.registry r).forgotten → (a, .link l) ∈ (w.registry r).forgotten
  tracers : ∀ t : TracerRef, t.index < n → w'.tracer t = w.tracer t
  more : w.tracers.size ≤ w'.tracers.size

namespace Slight

/-- Objects, observers, links, engines and tracers are what they were. -/
theorem of_grows (grows : w.Extends w') (objects : w'.objects = w.objects)
    (registries : w'.registries = w.registries) (links : w'.links = w.links)
    (engines : w'.engines = w.engines) (tracers : w'.tracers = w.tracers)
    (whole : w.Whole → w'.Whole) : w.Slight n w' where
  grows := grows
  still := {
    toSameObservable := .of_eq objects
    toSameListed := .of_eq registries
    toSameRecords := .of_eq engines
    links := links
    traced := fun t nodup => by simpa only [tracer, tracers] using nodup }
  valueOf? d := by simp only [World.valueOf?, stored?, declared?, entity?, objects]
  whole := whole
  forgotten {_ _ _ _ r _} _ _ gone := by simpa only [registry, registries] using gone
  tracers t _ := by simp only [tracer, tracers]
  more := Nat.le_of_eq (by rw [tracers])

theorem refl (w : World) : w.Slight n w := .of_grows (.refl w) rfl rfl rfl rfl rfl id

theorem trans (first : w₁.Slight n w₂) (next : w₂.Slight n w₃) : w₁.Slight n w₃ where
  grows := first.grows.trans next.grows
  still := first.still.trans next.still
  valueOf? d := (next.valueOf? d).trans (first.valueOf? d)
  whole whole := next.whole (first.whole whole)
  forgotten {o e name l r a} engine held gone := by
    have engine' : w₂.engineOf? o = some e := by
      rw [first.grows.engineOf?, engine]
    have held' : l ∈ (w₂.engine e).linksOf name := by
      rw [Engine.linksOf, first.still.linksOf]
      exact held
    exact first.forgotten engine held (next.forgotten engine' held' gone)
  tracers t old := (next.tracers t old).trans (first.tracers t old)
  more := Nat.le_trans first.more next.more

theorem mono {m : Nat} (slight : w.Slight n w') (fewer : m ≤ n) : w.Slight m w' where
  grows := slight.grows
  still := slight.still
  valueOf? := slight.valueOf?
  whole := slight.whole
  forgotten := slight.forgotten
  tracers t old := slight.tracers t (Nat.lt_of_lt_of_le old fewer)
  more := slight.more

theorem linksOf (slight : w.Slight n w') (e : EngineRef) (name : String) :
    (w'.engine e).linksOf name = (w.engine e).linksOf name := by
  rw [Engine.linksOf, Engine.linksOf, slight.still.linksOf]

end Slight

/-- What is in progress is no attribute's business. -/
theorem slight_progress (n : Nat) (w : World) (depth : Nat) (limit : Option Nat)
    (held : List Handle) : w.Slight n {w with depth := depth, limit := limit, held := held} :=
  .of_grows (.of_tables rfl rfl rfl rfl id id id id id id) rfl rfl rfl rfl rfl
    fun whole => ⟨whole.items, whole.entries⟩

theorem Grown.slight {n : Nat} {w w' : World} (grown : w.Grown w') (whole : w'.Whole) :
    w.Slight n w' := by
  obtain ⟨lists, maps, _, _, rfl⟩ := grown
  exact .of_grows (.of_tables rfl rfl rfl rfl lists maps id id id id) rfl rfl rfl rfl rfl
    fun _ => whole

theorem slight_addEntry (w : World) (e : LogEntry) : w.Slight n (w.addEntry e) :=
  .of_grows (.of_tables rfl rfl rfl rfl id id id id id id) rfl rfl rfl rfl rfl
    fun whole => ⟨whole.items, whole.entries⟩

theorem slight_tell (w : World) (x : Observer) (change : ObjectId) : w.Slight n (w.tell x change) :=
  .of_grows (.of_tables rfl rfl rfl rfl id id id id id id) rfl rfl rfl rfl rfl
    fun whole => ⟨whole.items, whole.entries⟩

theorem slight_modifyDesk (w : World) (f : Desk → Desk) (kept : (f w.desk).kept = w.desk.kept) :
    w.Slight n (w.modifyDesk f) :=
  .of_grows (.of_tables rfl rfl rfl kept id id id id id id) rfl rfl rfl rfl rfl
    fun whole => ⟨whole.items, whole.entries⟩

theorem slight_addTracer (w : World) (o : ObjectId) (name : String) :
    w.Slight w.tracers.size (w.addTracer (.start o name)).1 where
  grows := .of_tables rfl rfl rfl rfl id id id id id id
  still := still_addTracer o name
  valueOf? _ := rfl
  whole whole := ⟨whole.items, whole.entries⟩
  forgotten _ _ gone := gone
  tracers t old := by
    rw [tracer_addTracer, if_neg (Nat.ne_of_lt old)]
  more := by
    show _ ≤ (w.tracers.push _).size
    rw [Array.size_push]
    omega

theorem slight_record (w : World) (t : TracerRef) (d : Dependency) :
    w.Slight t.index (w.modifyTracer t (·.record d)) where
  grows := .of_tables rfl rfl rfl rfl id id id id id id
  still := still_modifyTracer t _ fun _ => Tracer.record_nodup d
  valueOf? _ := rfl
  whole whole := ⟨whole.items, whole.entries⟩
  forgotten _ _ gone := gone
  tracers u old := by
    rw [tracer_modifyTracer, if_neg]
    rintro ⟨rfl, _⟩
    exact Nat.lt_irrefl _ old
  more := Nat.le_of_eq Array.size_modify.symm

/-- A tracer that is there has something on record once it has been recorded. -/
theorem mem_dependencies_record {t : TracerRef} (inside : t.index < w.tracers.size)
    (d d' : Dependency) : d' ∈ ((w.modifyTracer t (·.record d)).tracer t).dependencies ↔
      d' ∈ (w.tracer t).dependencies ∨ d' = d := by
  rw [tracer_modifyTracer, if_pos ⟨rfl, inside⟩]
  unfold Tracer.record
  split
  · next known =>
    rw [Tracer.contains_iff] at known
    exact ⟨.inl, fun old => old.elim id fun same => same ▸ known⟩
  · rw [List.mem_append, List.mem_singleton]

/-- A tracer that does not exist yet has nothing on record. -/
theorem dependencies_next (w : World) : (w.tracer ⟨w.tracers.size⟩).dependencies = [] := by
  rw [tracer, Array.getElem?_eq_none (Nat.le_refl _)]
  rfl

theorem slight_addChange (w : World) (c : Change) : w.Slight n (w.addObject (.change c)).1 := by
  have old {o : ObjectId} (there : w.has o = true) :
      (w.addObject (.change c)).1.entity? o = w.entity? o := by
    rw [entity?_addObject, if_neg]
    exact Nat.ne_of_lt (w.has_iff.1 there)
  have declared? (o : ObjectId) : (w.addObject (.change c)).1.declared? o = w.declared? o := by
    rw [declared?_addObject]
    split
    · next last => rw [w.declared?_of_size_le (Nat.le_of_eq last.symm)]; rfl
    · rfl
  exact {
    grows :=
      { Extends.refl w with
        declared := fun {o d} here => ⟨d, (declared? o).trans here, .refl d⟩
        back := fun {o d} here => ⟨d, (declared? o).symm.trans here⟩
        entity := fun {o x} here _ => by
          rw [old, here]
          rw [← entity?_isSome, here]
          rfl }
    still := still_addObject fun _ same => by cases same
    valueOf? := fun d => by rw [valueOf?, valueOf?, stored?, stored?, declared?]
    whole := fun whole => ⟨whole.items, whole.entries⟩
    forgotten := fun _ _ gone => gone
    tracers := fun _ _ => rfl
    more := Nat.le_refl _ }

/-- The links that engines of objects have are held. -/
def Tethered (w : World) : Prop :=
  ∀ ⦃o e name l⦄, w.engineOf? o = some e → l ∈ (w.engine e).linksOf name →
    w.isLive (.link l) = true

theorem Grounded.tethered (grounded : w.Grounded) : w.Tethered :=
  fun _ _ _ _ engine held => isLive_of_linksOf (grounded.isLive_engine engine) held

theorem slight_prune (tethered : w.Tethered) {r : RegistryRef} {name : String}
    {xs : List Observer} (found : (w.registry r).slots.get? name = some xs) :
    w.Slight n (w.modifyRegistry r (·.prune name (w.liveObservers xs).contains)) where
  grows := .of_tables rfl rfl rfl rfl id id id id id id
  still := still_modifyRegistry r _ fun x a l => x.appearances_prune ..
  valueOf? _ := rfl
  whole whole := ⟨whole.items, whole.entries⟩
  tracers _ _ := rfl
  more := Nat.le_refl _
  forgotten {o e a l s b} engine held gone := by
    rw [registry_modifyRegistry] at gone
    split at gone
    · next same =>
      obtain ⟨rfl, _⟩ := same
      unfold Registry.prune at gone
      rw [found] at gone
      rcases List.mem_append.1 gone with now | before
      · obtain ⟨x, mem, same⟩ := List.mem_map.1 now
        cases same
        obtain ⟨listed, out⟩ := List.mem_filter.1 mem
        have stays : .link l ∈ w.liveObservers xs :=
          List.mem_filter.2 ⟨listed, tethered engine held⟩
        rw [List.contains_iff_mem.2 stays] at out
        cases out
      · exact before
    · exact gone

theorem slight_guards (w : World) (e : EngineRef) (f : Engine → List String) :
    w.Slight n (w.modifyEngine e fun g => {g with guards := f g}) where
  grows :=
    { Extends.refl w with
      config := fun e' => by
        rw [engine_modifyEngine]
        split <;> rfl
      bindings := fun e' => by
        rw [engine_modifyEngine]
        split <;> rfl }
  still := still_guards e f
  valueOf? _ := rfl
  whole whole := ⟨whole.items, whole.entries⟩
  forgotten _ _ gone := gone
  tracers _ _ := rfl
  more := Nat.le_refl _

/-- The calls on record, in order. -/
def calls (w : World) : List (String × ObjectId × Nat) := w.log.toList.filterMap LogEntry.call?

theorem calls_addEntry (w : World) (e : LogEntry) :
    (w.addEntry e).calls = w.calls ++ e.call?.toList := by
  show (w.log.push e).toList.filterMap LogEntry.call? = _
  rw [Array.toList_push, List.filterMap_append]
  cases here : e.call? <;> simp [calls, here]

/-- The call that evaluates a bound attribute. -/
def bodyCall? (w : World) (x : Dependency) : Option (String × ObjectId × Nat) :=
  (w.handlerOf? x).map fun y =>
    (w.functionName y.2.function, x.object, if y.2.kind = .tracedRead then 1 else 0)

/-- The action ends in a slight step, as deep as it started, and no body was called. -/
structure Slips (n : Nat) (w w' : World) : Prop where
  slight : w.Slight n w'
  depth : w'.depth = w.depth
  calls : w'.calls = w.calls

namespace Slips

theorem trans {w₁ w₂ w₃ : World} (first : w₁.Slips n w₂) (next : w₂.Slips n w₃) :
    w₁.Slips n w₃ :=
  ⟨first.slight.trans next.slight, next.depth.trans first.depth, next.calls.trans first.calls⟩

theorem refl (w : World) : w.Slips n w := ⟨.refl w, rfl, rfl⟩

theorem mono {m : Nat} (slips : w.Slips n w') (fewer : m ≤ n) : w.Slips m w' :=
  ⟨slips.slight.mono fewer, slips.depth, slips.calls⟩

theorem progress (w : World) (limit : Option Nat) (held : List Handle) :
    w.Slips n {w with limit := limit, held := held} :=
  ⟨w.slight_progress n w.depth limit held, rfl, rfl⟩

theorem log (w : World) {e : LogEntry} (plain : e.call? = none) : w.Slips n (w.addEntry e) :=
  ⟨w.slight_addEntry e, rfl, by rw [calls_addEntry, plain, Option.toList_none, List.append_nil]⟩

theorem tell (w : World) (x : Observer) (change : ObjectId) : w.Slips n (w.tell x change) :=
  ⟨w.slight_tell x change, rfl, rfl⟩

theorem desk (w : World) (f : Desk → Desk) (kept : (f w.desk).kept = w.desk.kept) :
    w.Slips n (w.modifyDesk f) := ⟨w.slight_modifyDesk f kept, rfl, rfl⟩

theorem guard (w : World) (e : EngineRef) (name : String) : w.Slips n (w.guard e name) := by
  unfold World.guard
  split
  · exact .refl w
  · exact ⟨w.slight_guards e _, rfl, rfl⟩

theorem unguard (w₀ w : World) (e : EngineRef) (name : String) :
    w.Slips n (w₀.unguard w e name) := by
  unfold World.unguard
  split
  · exact .refl w
  · exact ⟨w.slight_guards e _, rfl, rfl⟩

end Slips

/-- The step slips by, and no link is held afterwards that was not held before. -/
structure Eases (n : Nat) (w w' : World) : Prop extends w.Slips n w' where
  held : ∀ {l}, .link l ∈ w'.held → .link l ∈ w.held

theorem Slips.eases (slips : w.Slips n w') (same : w'.held = w.held) : w.Eases n w' :=
  ⟨slips, fun mem => same ▸ mem⟩

namespace Eases

theorem trans (first : w₁.Eases n w₂) (next : w₂.Eases n w₃) : w₁.Eases n w₃ :=
  ⟨first.toSlips.trans next.toSlips, fun mem => first.held (next.held mem)⟩

theorem holding (w : World) {hs : List Handle} (plain : Linkless hs) :
    w.Eases n {w with held := hs ++ w.held} where
  toSlips := .progress w w.limit _
  held mem := (List.mem_append.1 mem).resolve_left fun new => Bool.noConfusion (plain _ new)

theorem guard (w : World) (e : EngineRef) (name : String) : w.Eases n (w.guard e name) := by
  refine (Slips.guard w e name).eases ?_
  unfold World.guard
  split <;> rfl

end Eases

end World

end LiveBinding
