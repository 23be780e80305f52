import LiveBinding.World

/-! Which things are still held.

Holding is counted, not traced: a thing is dropped when its last holder lets go. So it is
there as long as somebody outside holds it, or something that is itself still there; and
things that hold each other in a ring stay, since none of them is ever let go last. The
main statement is that looking back through holders tells exactly what is there. -/
namespace LiveBinding

def Observer.handle : Observer → Handle
  | .watcher c => .watcher c
  | .link l => .link l

def Subscription.handles (s : Subscription) : List Handle := [.watcher s.watcher]

def Kept.handles : Kept → List Handle
  | .object o | .change o => [.object o]
  | .value v => v.handles
  | .function f => [.function f]
  | .subscription s => s.handles
  | .registry _ => []
  | .bundle ss => ss.flatMap Subscription.handles
  | .scope s => s.handles
  | .tracer t => [.tracer t]
  | .handler h => [.function h.function]
  | .engine e => [.engine e]

def Entity.handles : Entity → List Handle
  | .declared d =>
    d.values.handles ++ d.storage.entries.map (fun e => .layer e.2) ++
      d.engine.toList.map .engine
  | .change c => .object c.owner :: c.old.handles ++ c.new.handles
  | .view owner tracer => .object owner :: tracer.toList.map .tracer

def Tracer.handles (t : Tracer) : List Handle :=
  .object t.owner :: t.dependencies.map fun d => .object d.object

def Binding.handles (b : Binding) : List Handle :=
  (b.read.toList ++ b.write.toList).map fun h => .function h.function

def Engine.handles (e : Engine) : List Handle :=
  e.bindings.entries.flatMap (fun b => b.2.handles) ++
    e.links.entries.flatMap fun s => s.2.map .link

namespace World

/-- What one thing holds. Parents are not held, and registries and observers hold
nothing. -/
def holds (w : World) : Handle → List Handle
  | .object o => (w.entity? o).elim [] Entity.handles
  | .list r => (w.items r).flatMap Value.handles
  | .map r => (w.entries r).handles
  | .layer l => (w.layer l).handles
  | .native f => (w.natives[f.index]?).elim [] fun n => n.captured.flatMap Value.handles
  | .function f => (w.functionEnvironment f).handles
  | .tracer t => (w.tracer t).handles
  | .engine e => (w.engine e).handles
  | .watcher _ | .link _ => []

/-- What the host and the operations in progress hold. -/
def roots (w : World) : List Handle :=
  w.desk.kept.entries.flatMap (fun e => e.2.handles) ++ w.held

/-- Everything that can hold something, what mostly does first. -/
def holders (w : World) : List Handle :=
  (List.range w.engines.size).map (fun i => .engine ⟨i⟩) ++
    (List.range w.objects.size).map (fun i => .object ⟨i⟩) ++
    (List.range w.tracers.size).map (fun i => .tracer ⟨i⟩) ++
    (List.range w.lists.size).map (fun i => .list ⟨i⟩) ++
    (List.range w.maps.size).map (fun i => .map ⟨i⟩) ++
    (List.range w.layers.size).map (fun i => .layer ⟨i⟩) ++
    (List.range w.functions.size).map (fun i => .function ⟨i⟩) ++
    (List.range w.natives.size).map (fun i => .native ⟨i⟩)

/-- One thing keeps another. -/
def Holds (w : World) (g h : Handle) : Prop := g ∈ w.holders ∧ h ∈ w.holds g

/-- A thing is dropped once nobody outside holds it and everything that holds it is
dropped itself. -/
inductive Dropped (w : World) : Handle → Prop where
  | intro {h : Handle} (outside : h ∉ w.roots) (inside : ∀ g, w.Holds g h → w.Dropped g) :
      w.Dropped h

/-- Goes back from a thing to its holders. `path` is the way walked so far, and `dropped`
is known to be dropped. There is no answer if the way comes to something held from outside
or goes round; otherwise all that was found to be dropped is added. -/
def dropsFrom (w : World) (roots all : List Handle) :
    Nat → List Handle → List Handle → Handle → Option (List Handle)
  | 0, _, _, _ => none
  | fuel + 1, path, dropped, h =>
    if roots.contains h || path.contains h then none
    else if dropped.contains h then some dropped
    else
      ((all.filter fun g => (w.holds g).contains h).foldlM
        (dropsFrom w roots all fuel (h :: path)) dropped).map (h :: ·)

/-- Whether a thing is still there. A way longer than there are holders goes round. -/
def isLive (w : World) (h : Handle) : Bool :=
  (w.dropsFrom w.roots w.holders (w.holders.length + 1) [] [] h).isNone

/-- The parent of an object, unless it is gone. -/
def parent? (w : World) (o : ObjectId) : Option ObjectId :=
  ((w.declared? o).bind Declared.parent).filter fun p => w.isLive (.object p)

/-! ### What is still there -/

/-- Things in a ring are never dropped. -/
theorem Dropped.not_round {w : World} {h : Handle} (gone : w.Dropped h) :
    ¬ Relation.TransGen w.Holds h h := by
  induction gone with
  | intro _ _ ih =>
    intro round
    cases round with
    | single held => exact ih _ held (.single held)
    | tail way held => exact ih _ held (.trans (.single held) way)

private theorem foldlM_grows {α : Type} {step : List α → α → Option (List α)} {P : α → Prop}
    (grows : ∀ s a t, (∀ d ∈ s, P d) → step s a = some t → a ∈ t ∧ s ⊆ t ∧ ∀ d ∈ t, P d)
    {l s t : List α} (known : ∀ d ∈ s, P d) (run : l.foldlM step s = some t) :
    l ⊆ t ∧ s ⊆ t ∧ ∀ d ∈ t, P d := by
  induction l generalizing s with
  | nil =>
    cases run
    exact ⟨List.nil_subset _, List.Subset.refl _, known⟩
  | cons a l ih =>
    rw [List.foldlM_cons] at run
    obtain ⟨u, first, others⟩ := Option.bind_eq_some_iff.1 run
    obtain ⟨here, kept, all⟩ := grows s a u known first
    obtain ⟨later, kept', all'⟩ := ih all others
    exact ⟨List.cons_subset.2 ⟨kept' here, later⟩, List.Subset.trans kept kept', all'⟩

private theorem foldlM_isSome {α : Type} {step : List α → α → Option (List α)} {l : List α}
    (all : ∀ a ∈ l, ∀ s, (step s a).isSome) (s : List α) : (l.foldlM step s).isSome := by
  induction l generalizing s with
  | nil => rfl
  | cons a l ih =>
    obtain ⟨t, first⟩ := Option.isSome_iff_exists.1 (all a List.mem_cons_self s)
    rw [List.foldlM_cons, first]
    exact ih (fun b hb => all b (List.mem_cons_of_mem _ hb)) t

/-- What the way back finds to be dropped is dropped. -/
theorem dropped_of_dropsFrom {w : World} {fuel : Nat} {path dropped out : List Handle}
    {h : Handle} (known : ∀ d ∈ dropped, w.Dropped d)
    (found : w.dropsFrom w.roots w.holders fuel path dropped h = some out) :
    h ∈ out ∧ dropped ⊆ out ∧ ∀ d ∈ out, w.Dropped d := by
  induction fuel generalizing path dropped out h with
  | zero => cases found
  | succ fuel ih =>
    rw [dropsFrom] at found
    split at found
    · cases found
    next inner =>
      split at found
      next seen =>
        cases found
        exact ⟨List.contains_iff_mem.1 seen, List.Subset.refl _, known⟩
      · obtain ⟨rest, walked, rfl⟩ := Option.map_eq_some_iff.1 found
        obtain ⟨through, kept, all⟩ := foldlM_grows (fun _ _ _ => ih) known walked
        refine ⟨List.mem_cons_self, List.Subset.trans kept (List.subset_cons_self ..), ?_⟩
        refine List.forall_mem_cons.2 ⟨.intro (fun outside => inner ?_) fun g held => ?_, all⟩
        · simp [outside]
        · exact all g (through (List.mem_filter.2 ⟨held.1, List.contains_iff_mem.2 held.2⟩))

/-- The way back from what is dropped ends. -/
theorem dropsFrom_isSome {w : World} {h start : Handle} (gone : w.Dropped h) {fuel : Nat}
    {path : List Handle} (dropped : List Handle) (nodup : path.Nodup)
    (way : ∀ p ∈ path, Relation.TransGen w.Holds h p)
    (inside : h :: path ⊆ start :: w.holders) (enough : w.holders.length + 1 ≤ fuel + path.length) :
    (w.dropsFrom w.roots w.holders fuel path dropped h).isSome := by
  induction gone generalizing fuel path dropped with
  | @intro h outside holders ih =>
    have fresh : h ∉ path := fun mem => (Dropped.intro outside holders).not_round (way h mem)
    have nodup' : (h :: path).Nodup := List.nodup_cons.2 ⟨fresh, nodup⟩
    cases fuel with
    | zero =>
      have short := nodup'.length_le_of_subset inside
      simp only [List.length_cons] at short
      omega
    | succ fuel =>
      rw [dropsFrom, if_neg (by simp [outside, fresh])]
      split
      · rfl
      · rw [Option.isSome_map]
        refine foldlM_isSome (fun g mem s => ?_) dropped
        have held : w.Holds g h :=
          ⟨(List.mem_filter.1 mem).1, List.contains_iff_mem.1 (List.mem_filter.1 mem).2⟩
        refine ih g held s nodup' (fun p hp => ?_) ?_ (by simp only [List.length_cons]; omega)
        · cases hp with
          | head => exact .single held
          | tail _ hp => exact .trans (.single held) (way p hp)
        · exact List.cons_subset.2 ⟨List.mem_cons_of_mem _ held.1, inside⟩

/-- Exactly what has not been dropped is still there. -/
theorem isLive_iff {w : World} {h : Handle} : w.isLive h = true ↔ ¬ w.Dropped h := by
  rw [isLive, Option.isNone_iff_eq_none]
  constructor
  · intro failed gone
    have found := @dropsFrom_isSome w h h gone (w.holders.length + 1) [] [] List.nodup_nil
      (by simp) (by simp) (Nat.le_refl _)
    rw [failed] at found
    cases found
  · intro stays
    cases found : w.dropsFrom w.roots w.holders (w.holders.length + 1) [] [] h with
    | none => rfl
    | some out =>
      obtain ⟨here, _, all⟩ := dropped_of_dropsFrom (by simp) found
      exact absurd (all h here) stays

theorem isLive_of_mem_roots {w : World} {h : Handle} (held : h ∈ w.roots) :
    w.isLive h = true :=
  isLive_iff.2 fun | .intro outside _ => outside held

theorem isLive_of_holds {w : World} {g h : Handle} (live : w.isLive g = true)
    (held : w.Holds g h) : w.isLive h = true :=
  isLive_iff.2 fun | .intro _ inside => isLive_iff.1 live (inside g held)

/-- Nothing is dropped when more is held. -/
theorem isLive_mono {w w' : World} {h : Handle} (roots : ∀ h ∈ w.roots, h ∈ w'.roots)
    (edges : ∀ {g h}, w.Holds g h → w'.Holds g h) (live : w.isLive h = true) :
    w'.isLive h = true := by
  refine isLive_iff.2 fun gone => isLive_iff.1 live ?_
  clear live
  induction gone with
  | intro outside inside ih =>
    exact .intro (fun root => outside (roots _ root)) fun g held => ih g (edges held)

/-- Nothing is held by being put down as told. -/
theorem isLive_tell {w : World} (x : Observer) (change : ObjectId) (h : Handle) :
    (w.tell x change).isLive h = w.isLive h :=
  Bool.eq_iff_iff.2 ⟨isLive_mono (w := w.tell x change) (fun _ => id) id,
    isLive_mono (fun _ => id) id⟩

end World

end LiveBinding
