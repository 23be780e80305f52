import LiveBinding.Proofs.Frame
import LiveBinding.Proofs.Growth

/-! What an evaluation has in hand.

An evaluation gets at what is there when it begins, and it may build containers. As long as it
holds on to nothing else, whatever was there stays there, and what was gone does not come back. So
objects keep their parents and names mean the same all the way. -/
namespace LiveBinding.World
variable {a w w' : World} {g h : Handle} {o p : ObjectId}

/-! ### What is in hand -/

/-- Comes to be after `a`. -/
def Fresh (a : World) : Handle → Prop
  | .list r => a.lists.size ≤ r.index
  | .map r => a.maps.size ≤ r.index
  | .layer l => a.layers.size ≤ l.index
  | .tracer t => a.tracers.size ≤ t.index
  | .object _ | .native _ | .function _ | .engine _ | .watcher _ | .link _ => False

/-- What an evaluation that begins in `a` can hold. -/
def InHand (a : World) (h : Handle) : Prop := a.Fresh h ∨ a.isLive h = true

/-- `w` is a world in the course of an evaluation that began in `a`: containers, layers and
tracers may be new, nothing old has changed, and whatever is held besides is in hand. -/
structure Endures (a w : World) : Prop where
  objects : w.objects = a.objects
  engines : w.engines = a.engines
  natives : w.natives = a.natives
  functions : w.functions = a.functions
  kept : w.desk.kept = a.desk.kept
  lists : ∀ {i : Nat} {x}, a.lists[i]? = some x → w.lists[i]? = some x
  maps : ∀ {i : Nat} {x}, a.maps[i]? = some x → w.maps[i]? = some x
  layers : ∀ {i : Nat} {x}, a.layers[i]? = some x → w.layers[i]? = some x
  tracers : ∀ {i : Nat} {x}, a.tracers[i]? = some x → w.tracers[i]? = some x
  held : ∀ h ∈ a.held, h ∈ w.held
  hand : ∀ h ∈ w.held, h ∈ a.held ∨ a.InHand h
  fresh : ∀ {g h}, a.Fresh g → w.Holds g h → a.InHand h

theorem mem_holders : h ∈ w.holders ↔ match h with
    | .engine e => e.index < w.engines.size
    | .object o => o.index < w.objects.size
    | .tracer t => t.index < w.tracers.size
    | .list r => r.index < w.lists.size
    | .map r => r.index < w.maps.size
    | .layer l => l.index < w.layers.size
    | .function f => f.index < w.functions.size
    | .native f => f.index < w.natives.size
    | .watcher _ | .link _ => False := by
  cases h <;> simp only [holders, List.mem_append, List.mem_map, List.mem_range,
    Handle.engine.injEq,
    Handle.object.injEq, Handle.tracer.injEq, Handle.list.injEq, Handle.map.injEq,
    Handle.layer.injEq, Handle.function.injEq, Handle.native.injEq, reduceCtorEq, and_false,
    exists_false, or_false, false_or]
  all_goals
    constructor
    · rintro ⟨i, inside, rfl⟩
      exact inside
    · exact fun inside => ⟨_, inside, rfl⟩

namespace Endures

/-- What is old holds what it held. -/
theorem holds (endures : a.Endures w) (old : ¬ a.Fresh g) : w.holds g = a.holds g := by
  cases g with
  | object o => simp only [World.holds, entity?, endures.objects]
  | native f => simp only [World.holds, endures.natives]
  | function f => simp only [World.holds, functionEnvironment, endures.functions]
  | engine e => simp only [World.holds, World.engine, endures.engines]
  | watcher c => rfl
  | link l => rfl
  | list r =>
    have there := Array.getElem?_eq_getElem (Nat.lt_of_not_le old)
    simp only [World.holds, items, there, endures.lists there]
  | map r =>
    have there := Array.getElem?_eq_getElem (Nat.lt_of_not_le old)
    simp only [World.holds, entries, there, endures.maps there]
  | layer l =>
    have there := Array.getElem?_eq_getElem (Nat.lt_of_not_le old)
    simp only [World.holds, layer, there, endures.layers there]
  | tracer t =>
    have there := Array.getElem?_eq_getElem (Nat.lt_of_not_le old)
    simp only [World.holds, tracer, there, endures.tracers there]

theorem size_le {α : Type} {xs ys : Array α}
    (grows : ∀ {i : Nat} {x}, xs[i]? = some x → ys[i]? = some x) : xs.size ≤ ys.size := by
  apply Nat.le_of_not_lt
  intro less
  have there := grows (Array.getElem?_eq_getElem less)
  rw [Array.getElem?_eq_none (Nat.le_refl _)] at there
  cases there

theorem mem_holders (endures : a.Endures w) : g ∈ a.holders ↔ ¬ a.Fresh g ∧ g ∈ w.holders := by
  have lists := size_le endures.lists
  have maps := size_le endures.maps
  have layers := size_le endures.layers
  have tracers := size_le endures.tracers
  rw [World.mem_holders, World.mem_holders]
  cases g <;> simp only [Fresh, endures.objects, endures.engines, endures.natives,
    endures.functions, not_false_eq_true, true_and, and_false]
  all_goals omega

/-- What was gone does not come back. -/
theorem dropped (endures : a.Endures w) (gone : a.Dropped h) (old : ¬ a.Fresh h) : w.Dropped h := by
  induction gone with
  | @intro h outside inside ih =>
    have away : ¬ a.InHand h := by
      rintro (fresh | live)
      · exact old fresh
      · exact isLive_iff.1 live (.intro outside inside)
    apply Dropped.intro
    · intro root
      rcases List.mem_append.1 root with kept | held
      · rw [endures.kept] at kept
        exact outside (List.mem_append_left _ kept)
      · rcases endures.hand h held with before | hand
        · exact outside (List.mem_append_right _ before)
        · exact away hand
    · intro g held
      by_cases fresh : a.Fresh g
      · exact absurd (endures.fresh fresh held) away
      · refine ih g ⟨endures.mem_holders.2 ⟨fresh, held.1⟩, ?_⟩ fresh
        rw [← endures.holds fresh]
        exact held.2

/-- What was there does not go. -/
theorem dropped_of (endures : a.Endures w) (gone : w.Dropped h) : a.Dropped h := by
  induction gone with
  | @intro h outside inside ih =>
    apply Dropped.intro
    · intro root
      rcases List.mem_append.1 root with kept | held
      · rw [← endures.kept] at kept
        exact outside (List.mem_append_left _ kept)
      · exact outside (List.mem_append_right _ (endures.held h held))
    · intro g held
      obtain ⟨old, holder⟩ := endures.mem_holders.1 held.1
      apply ih g
      refine ⟨holder, ?_⟩
      rw [endures.holds old]
      exact held.2

theorem isLive (endures : a.Endures w) (old : ¬ a.Fresh h) : w.isLive h = a.isLive h := by
  rw [Bool.eq_iff_iff, isLive_iff, isLive_iff]
  exact not_congr ⟨endures.dropped_of, fun gone => endures.dropped gone old⟩

theorem entity? (endures : a.Endures w) (o : ObjectId) : w.entity? o = a.entity? o := by
  rw [World.entity?, World.entity?, endures.objects]

theorem declared? (endures : a.Endures w) (o : ObjectId) : w.declared? o = a.declared? o := by
  rw [World.declared?, World.declared?, endures.entity?]

theorem parent? (endures : a.Endures w) (o : ObjectId) : w.parent? o = a.parent? o := by
  have live (p : ObjectId) : w.isLive (.object p) = a.isLive (.object p) := endures.isLive nofun
  simp only [World.parent?, endures.declared?, live]

/-! ### What it leads to -/

/-- Whatever is held by what is in hand is in hand. -/
theorem inHand (endures : a.Endures w) (hand : a.InHand g) (held : w.Holds g h) : a.InHand h := by
  by_cases fresh : a.Fresh g
  · exact endures.fresh fresh held
  · rcases hand with new | live
    · exact absurd new fresh
    · refine .inr (isLive_of_holds live ⟨endures.mem_holders.2 ⟨fresh, held.1⟩, ?_⟩)
      rw [← endures.holds fresh]
      exact held.2

/-! ### Steps of an evaluation -/

theorem refl (a : World) : a.Endures a := by
  refine ⟨rfl, rfl, rfl, rfl, rfl, id, id, id, id, fun _ => id, fun _ => .inl, ?_⟩
  intro g h fresh held
  have there := World.mem_holders.1 held.1
  cases g with
  | list r => exact absurd fresh (Nat.not_le_of_lt there)
  | map r => exact absurd fresh (Nat.not_le_of_lt there)
  | layer l => exact absurd fresh (Nat.not_le_of_lt there)
  | tracer t => exact absurd fresh (Nat.not_le_of_lt there)
  | _ => cases fresh

theorem hold (endures : a.Endures w) {hs : List Handle} (hand : ∀ h ∈ hs, a.InHand h) :
    a.Endures {w with held := hs ++ w.held} :=
  { endures with
    held := fun h mem => List.mem_append_right _ (endures.held h mem)
    hand := fun h mem => (List.mem_append.1 mem).elim (fun new => .inr (hand h new))
      (endures.hand h) }

/-- Lets go of what has been held meanwhile. -/
theorem release (endures : a.Endures w) (inner : a.Endures w') :
    a.Endures {w' with held := w.held} :=
  { inner with held := endures.held, hand := endures.hand }

theorem record (endures : a.Endures w) {t : TracerRef} (new : a.Fresh (.tracer t))
    (hand : a.InHand (.object o)) (name : String) :
    a.Endures (w.modifyTracer t (·.record ⟨o, name⟩)) :=
  { endures with
    tracers := fun {i x} here => by
      have inside := (Array.getElem?_eq_some_iff.1 here).1
      have apart : t.index ≠ i := by
        rintro rfl
        exact absurd new (Nat.not_le_of_lt inside)
      show (w.tracers.modify _ _)[i]? = some x
      rw [Array.getElem?_modify, if_neg apart]
      exact endures.tracers here
    fresh := fun {g h} fresh held => by
      have there : g ∈ w.holders := by
        have holder := held.1
        have size : (w.modifyTracer t (·.record ⟨o, name⟩)).tracers.size = w.tracers.size :=
          Array.size_modify
        rw [World.mem_holders] at holder ⊢
        rw [size] at holder
        exact holder
      have before (mem : h ∈ w.holds g) : a.InHand h := endures.fresh fresh ⟨there, mem⟩
      obtain ⟨_, mem⟩ := held
      cases g with
      | tracer u =>
        simp only [World.holds, tracer_modifyTracer] at mem
        split at mem
        · rcases List.mem_cons.1 mem with owner | mem
          · refine before (List.mem_cons.2 (.inl ?_))
            rw [owner, Tracer.record]
            split <;> rfl
          · obtain ⟨d, recorded, rfl⟩ := List.mem_map.1 mem
            unfold Tracer.record at recorded
            split at recorded
            · exact before (List.mem_cons_of_mem _ (List.mem_map_of_mem recorded))
            · rcases List.mem_append.1 recorded with old | this
              · exact before (List.mem_cons_of_mem _ (List.mem_map_of_mem old))
              · cases List.mem_singleton.1 this
                exact hand
        · exact before mem
      | _ => exact before mem }

theorem addList (endures : a.Endures w) {items : List Value}
    (hand : ∀ h ∈ items.flatMap Value.handles, a.InHand h) : a.Endures (w.addList items).1 :=
  { endures with
    lists := fun here => getElem?_push_of_eq_some _ (endures.lists here)
    fresh := fun {g h} fresh held => by
      obtain ⟨holder, mem⟩ := held
      rw [World.mem_holders] at holder
      cases g with
      | list r =>
        have inside : r.index < (w.lists.push items).size := holder
        rw [Array.size_push] at inside
        have found : (w.addList items).1.items r =
            if r.index = w.lists.size then items else w.items r := by
          rw [World.items, World.items, World.addList, Array.getElem?_push]
          split <;> rfl
        simp only [World.holds, found] at mem
        split at mem
        · exact hand h mem
        · next old =>
          have there : Handle.list r ∈ w.holders := World.mem_holders.2 (by dsimp only; omega)
          exact endures.fresh fresh ⟨there, mem⟩
      | map r => exact endures.fresh fresh ⟨World.mem_holders.2 holder, mem⟩
      | layer l => exact endures.fresh fresh ⟨World.mem_holders.2 holder, mem⟩
      | tracer t => exact endures.fresh fresh ⟨World.mem_holders.2 holder, mem⟩
      | _ => cases fresh }

theorem addMap (endures : a.Endures w) {entries : Dict String Value}
    (hand : ∀ h ∈ entries.handles, a.InHand h) : a.Endures (w.addMap entries).1 :=
  { endures with
    maps := fun here => getElem?_push_of_eq_some _ (endures.maps here)
    fresh := fun {g h} fresh held => by
      obtain ⟨holder, mem⟩ := held
      rw [World.mem_holders] at holder
      cases g with
      | map r =>
        have inside : r.index < (w.maps.push entries).size := holder
        rw [Array.size_push] at inside
        have found : (w.addMap entries).1.entries r =
            if r.index = w.maps.size then entries else w.entries r := by
          rw [World.entries, World.entries, World.addMap, Array.getElem?_push]
          split <;> rfl
        simp only [World.holds, found] at mem
        split at mem
        · exact hand h mem
        · next old =>
          have there : Handle.map r ∈ w.holders := World.mem_holders.2 (by dsimp only; omega)
          exact endures.fresh fresh ⟨there, mem⟩
      | list r => exact endures.fresh fresh ⟨World.mem_holders.2 holder, mem⟩
      | layer l => exact endures.fresh fresh ⟨World.mem_holders.2 holder, mem⟩
      | tracer t => exact endures.fresh fresh ⟨World.mem_holders.2 holder, mem⟩
      | _ => cases fresh }

/-- A layer of its own, with nothing in it yet. -/
theorem addLayer (endures : a.Endures w) : a.Endures (w.addLayer .empty).1 :=
  { endures with
    layers := fun here => getElem?_push_of_eq_some _ (endures.layers here)
    fresh := fun {g h} fresh held => by
      obtain ⟨holder, mem⟩ := held
      rw [World.mem_holders] at holder
      cases g with
      | layer l =>
        have inside : l.index < (w.layers.push .empty).size := holder
        rw [Array.size_push] at inside
        have found : (w.addLayer .empty).1.layer l =
            if l.index = w.layers.size then .empty else w.layer l := by
          rw [World.layer, World.layer, World.addLayer, Array.getElem?_push]
          split <;> rfl
        simp only [World.holds, found] at mem
        split at mem
        · cases mem
        · next old =>
          have there : Handle.layer l ∈ w.holders := World.mem_holders.2 (by dsimp only; omega)
          exact endures.fresh fresh ⟨there, mem⟩
      | list r => exact endures.fresh fresh ⟨World.mem_holders.2 holder, mem⟩
      | map r => exact endures.fresh fresh ⟨World.mem_holders.2 holder, mem⟩
      | tracer t => exact endures.fresh fresh ⟨World.mem_holders.2 holder, mem⟩
      | _ => cases fresh }

theorem addTracer (endures : a.Endures w) (hand : a.InHand (.object o)) (name : String) :
    a.Endures (w.addTracer (.start o name)).1 :=
  { endures with
    tracers := fun here => getElem?_push_of_eq_some _ (endures.tracers here)
    fresh := fun {g h} fresh held => by
      obtain ⟨holder, mem⟩ := held
      rw [World.mem_holders] at holder
      cases g with
      | tracer t =>
        have inside : t.index < (w.tracers.push (.start o name)).size := holder
        rw [Array.size_push] at inside
        have found : (w.addTracer (.start o name)).1.tracer t =
            if t.index = w.tracers.size then .start o name else w.tracer t := by
          rw [World.tracer, World.tracer, World.addTracer, Array.getElem?_push]
          split <;> rfl
        simp only [World.holds, found] at mem
        split at mem
        · cases List.mem_singleton.1 mem
          exact hand
        · next old =>
          have there : Handle.tracer t ∈ w.holders := World.mem_holders.2 (by dsimp only; omega)
          exact endures.fresh fresh ⟨there, mem⟩
      | list r => exact endures.fresh fresh ⟨World.mem_holders.2 holder, mem⟩
      | map r => exact endures.fresh fresh ⟨World.mem_holders.2 holder, mem⟩
      | layer l => exact endures.fresh fresh ⟨World.mem_holders.2 holder, mem⟩
      | _ => cases fresh }

end Endures

/-! ### Objects that are there -/

/-- Names are found in objects that are there. -/
theorem isLive_of_nearest? (live : w.isLive (.object o) = true) {name : String}
    (found : w.nearest? o name = some p) : w.isLive (.object p) = true := by
  have within (fuel : Nat) (o : ObjectId) (live : w.isLive (.object o) = true)
      (found : w.nearestWithin name fuel o = some p) : w.isLive (.object p) = true := by
    induction fuel generalizing o with
    | zero =>
      simp only [nearestWithin] at found
      cases found
    | succ fuel ih =>
      simp only [nearestWithin] at found
      split at found
      · cases found
        exact live
      · split at found
        · next q parent => exact ih q (Option.filter_eq_some_iff.1 parent).2 found
        · cases found
  exact within _ o live found

end LiveBinding.World
