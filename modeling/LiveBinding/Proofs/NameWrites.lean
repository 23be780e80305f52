import LiveBinding.Proofs.Inversion
import LiveBinding.Proofs.Layers

/-! Assigning and deleting names.

A name that some object of the owner chain has is assigned there, and it is nobody else's business.
Any other name becomes a local: that changes one entry of one layer, so nothing but this name stands
for anything else afterwards, and deleting the local takes everything back. What was the last thing
to hold a parent may be replaced by this, though, and then the parent's attributes are gone. -/
namespace LiveBinding

/-! ### One entry of one layer -/

theorem Dict.erase_insert {κ α : Type} [DecidableEq κ] {d : Dict κ α} {k : κ} (v : α)
    (unset : d.get? k = none) : (d.insert k v).erase k = d := by
  have entries (es : List (κ × α)) (unset : Dict.find k es = none) :
      (Dict.put k v es).filter (fun e => !decide (e.1 = k)) = es := by
    induction es with
    | nil => simp [Dict.put]
    | cons e rest ih =>
      obtain ⟨j, x⟩ := e
      by_cases same : j = k
      · rw [Dict.find, if_pos same] at unset
        cases unset
      · rw [Dict.find, if_neg same] at unset
        simp [Dict.put, same, ih unset]
  obtain ⟨es, nodup⟩ := d
  simp only [Dict.insert, Dict.erase, Dict.mk.injEq]
  exact entries es unset

namespace World
variable {w w' : World} {s : Scope} {name : String} {v : Value}

/-- Everything held keeps the parent it has. -/
def KeepsParents (w w' : World) : Prop :=
  ∀ o p, w.isLive (.object o) = true → w.parent? o = some p → w'.parent? o = some p

/-- A local has got a value. -/
def setLocal (w : World) (s : Scope) (name : String) (v : Value) : World :=
  w.modifyLayer s.locals (·.insert name v)

/-- Deleting a new local takes everything back. -/
theorem erase_setLocal (unset : (w.layer s.locals).get? name = none) :
    (w.setLocal s name v).modifyLayer s.locals (·.erase name) = w := by
  have layers : ((w.layers.modify s.locals.index (·.insert name v)).modify s.locals.index
      (·.erase name)) = w.layers := by
    refine Array.ext_getElem? fun i => ?_
    rw [Array.getElem?_modify, Array.getElem?_modify]
    split
    · next same =>
      subst same
      cases there : w.layers[s.locals.index]? with
      | none => rfl
      | some d =>
        rw [layer, there] at unset
        exact congrArg some (Dict.erase_insert v unset)
    · rfl
  exact congrArg (fun layers => {w with layers := layers}) layers

theorem layer_setLocal (there : s.locals.index < w.layers.size) :
    (w.setLocal s name v).layer s.locals = (w.layer s.locals).insert name v := by
  rw [setLocal, layer_modifyLayer, if_pos ⟨rfl, there⟩]

/-- A local that is new holds what it is, and everything else is held as it was. -/
theorem isLive_setLocal {h : Handle} (there : s.locals.index < w.layers.size)
    (unset : (w.layer s.locals).get? name = none) (live : w.isLive h = true) :
    (w.setLocal s name v).isLive h = true := by
  have edges {g h : Handle} (held : w.Holds g h) : (w.setLocal s name v).Holds g h := by
    obtain ⟨holder, mem⟩ := held
    refine ⟨?_, ?_⟩
    · rw [mem_holders] at holder ⊢
      cases g with
      | layer l => exact Nat.lt_of_lt_of_eq holder Array.size_modify.symm
      | _ => exact holder
    · cases g with
      | layer l =>
        by_cases same : s.locals = l
        · subst same
          obtain ⟨⟨k, x⟩, entry, inside⟩ := List.mem_flatMap.1 mem
          show h ∈ ((w.setLocal s name v).layer s.locals).handles
          rw [layer_setLocal there]
          refine List.mem_flatMap.2 ⟨(k, x), Dict.get?_eq_some.1 ?_, inside⟩
          have here := Dict.get?_eq_some.2 entry
          rw [Dict.get?_insert, if_neg, here]
          rintro rfl
          cases unset.symm.trans here
        · show h ∈ ((w.setLocal s name v).layer l).handles
          rw [setLocal, layer_modifyLayer, if_neg fun both => same both.1]
          exact mem
      | _ => exact mem
  have roots : ∀ h ∈ w.roots, h ∈ (w.setLocal s name v).roots := fun _ => id
  exact isLive_mono roots edges live

theorem keepsParents_setLocal (there : s.locals.index < w.layers.size)
    (unset : (w.layer s.locals).get? name = none) : w.KeepsParents (w.setLocal s name v) := by
  intro o p _ parent
  obtain ⟨declared, live⟩ := Option.filter_eq_some_iff.1 parent
  exact Option.filter_eq_some_iff.2 ⟨declared, isLive_setLocal there unset live⟩

/-! ### What names stand for afterwards -/

/-- A chain of objects that keep their parents stays the chain it is, with the attributes it has. -/
theorem Resembles.lineage {o : ObjectId} {os : List ObjectId} (alike : w.Resembles w')
    (descends : w.Descends) (lineage : w.Lineage o os) (old : o.index < w.objects.size)
    (live : w.isLive (.object o) = true) :
    w'.Lineage o os ∧ ∀ q ∈ os, ∀ name, w'.hasAttribute q name = w.hasAttribute q name := by
  induction lineage with
  | last root =>
    refine ⟨.last ((alike.parent old live).trans root), fun q mem name => ?_⟩
    cases List.mem_singleton.1 mem
    exact (alike.within descends name _ old live).1
  | next parent _ ih =>
    obtain ⟨_, live'⟩ := Option.filter_eq_some_iff.1 parent
    obtain ⟨rest, same⟩ := ih (Nat.lt_trans (descends.parent?_lt parent) old) live'
    refine ⟨.next ((alike.parent old live).trans parent) rest, fun q mem name => ?_⟩
    rcases List.mem_cons.1 mem with rfl | mem
    · exact (alike.within descends name _ old live).1
    · exact same q mem name

/-- Only the name itself stands for something else once it has become a local. -/
theorem sources_setLocal {chain : List ObjectId} {m : String}
    (there : s.locals.index < w.layers.size)
    (same : ∀ q ∈ chain, (w.setLocal s name v).hasAttribute q m = w.hasAttribute q m)
    (other : m ≠ name) : (w.setLocal s name v).sources s chain m = w.sources s chain m := by
  have locals : ((w.setLocal s name v).layer s.locals).get? m = (w.layer s.locals).get? m := by
    rw [layer_setLocal there, Dict.get?_insert, if_neg fun same => other same.symm]
  have attributes : chain.filter ((w.setLocal s name v).hasAttribute · m) =
      chain.filter (w.hasAttribute · m) := List.filter_congr same
  unfold sources
  rw [locals, attributes]
  rfl

end World

/-! ### Names that are assigned -/

section
variable {w : World} {s : Scope} {name : String} {v : Value} {o : ObjectId}

theorem perform_setName (n : Nat) :
    perform (n + 1) Unit (.setName s name v) w = setName (perform n) s name v w := rfl

/-- A name is assigned at the nearest object that has it. -/
theorem setName_of_nearest? (self : Performer) (free : isReserved name = false)
    (near : w.nearest? s.owner name = some o) :
    setName self s name v w = setAttr self (.object o) name v w := by
  unfold setName
  rw [free]
  show (Action.read (·.nearest? s.owner name) >>= _) w = _
  rw [Action.read_bind, near]
  rfl

/-- A name that no object has becomes a local. -/
theorem setName_of_none (self : Performer) (free : isReserved name = false)
    (nowhere : w.nearest? s.owner name = none) :
    setName self s name v w = some (.ok (), w.setLocal s name v) := by
  unfold setName
  rw [free]
  show (Action.read (·.nearest? s.owner name) >>= _) w = _
  rw [Action.read_bind, nowhere]
  rfl

theorem setName_of_reserved (self : Performer) (reserved : isReserved name = true) :
    setName self s name v w =
      some (.error (.evaluation s!"cannot assign to reserved name '{name}'"), w) := by
  unfold setName
  rw [if_pos reserved]
  rfl

theorem delName_of_none (unset : (w.layer s.locals).get? name = none) :
    delName s name w = some (.error (.nameResolution name), w) := by
  unfold delName Dict.contains
  rw [Action.read_bind, unset]
  rfl

theorem delName_of_some {x : Value} (set : (w.layer s.locals).get? name = some x) :
    delName s name w = some (.ok (), w.modifyLayer s.locals (·.erase name)) := by
  unfold delName Dict.contains
  rw [Action.read_bind, set]
  rfl

theorem World.reserved?_of_free (free : isReserved name = false) : w.reserved? s name = none := by
  rw [isReserved, Option.isSome_eq_false_iff, Option.isNone_iff_eq_none] at free
  rw [World.reserved?, free]
  rfl

/-- An assignment to an attribute that is neither bound nor observed is read back, if no local and
no lost parent stands in the way. -/
theorem setName_reads_back (backs : w.Backs s) (held : ∀ h ∈ v.handles, h ∈ w.roots)
    (plain : isReserved name = false) (near : w.nearest? s.owner name = some o)
    (unset : (w.layer s.locals).get? name = none)
    (free : ∀ p, w.supplier? o name = some p → w.Free ⟨p, name⟩) :
    Leads w (fun self => self Unit (.setName s name v)) fun r w' => r = .ok () →
      w.KeepsParents w' → Leads w' (fun self => self Value (.getName s name)) fun r _ =>
        ∃ x, r = .ok x ∧ (x = v ∨ w'.equal x v = true) := by
  have location : (Target.name name).location? w s =
      (w.supplier? o name).map fun p => .attr ⟨p, name⟩ := by
    rw [Target.location?, plain, near]
    rfl
  have live : ∀ h ∈ v.handles, w.isLive h = true := fun h mem =>
    World.isLive_of_mem_roots (held h mem)
  have tries : w.Tries w (fun self => self Unit (.setName s name v))
      ((Target.name name).location? w s) v fun e => ∃ c, e = .access c := by
    refine Leads.request
      (World.setName_tries backs (World.Surveys.refl w) plain live fun p there => ?_)
    rw [location] at there
    obtain ⟨_, supplier, same⟩ := Option.map_eq_some_iff.1 there
    cases same
    exact free p supplier
  have keeps := tries.keeps fun n => World.frame_descends.perform n (.setName s name v) w
  refine keeps.mono ?_
  rintro r w' ⟨⟨same, ⟨ℓ, there, _, rfl, puts⟩ | ⟨⟨e, rfl, _⟩, _⟩⟩, -, descends⟩ ok kept
  · obtain ⟨x, here, equal⟩ := puts.exists_content
    have rereads : World.Rereads s w w' ℓ x :=
      ⟨backs, puts.backs backs (descends backs.descends) same, puts.resembles backs.descends kept,
        puts.others, here⟩
    have quiet (d : Dependency) (is : ℓ = .attr d) : w'.handlerOf? d = none := by
      rw [location] at there
      obtain ⟨p, supplier, rfl⟩ := Option.map_eq_some_iff.1 there
      cases is
      exact puts.quiet (free p supplier).quiet
    refine Leads.request ((rereads.getName plain there (.inl unset) quiet).mono ?_)
    rintro r _ rfl
    exact ⟨x, rfl, equal⟩
  · cases ok

end

/-- **Names are written where they are found, and otherwise become locals.** Whoever writes holds
the scope and the value. A reserved name is refused, and so is deleting a name that is no local;
nothing changes then. If some object of the owner chain has the name, assigning it is assigning the
attribute of the nearest such object: it ends in the same way, with the same result and the same
world, so all that happens to the locals is what that assignment does by itself. If moreover no
local has the name, the attribute is neither bound nor observed, and nobody loses a parent, the name
has the value, or one that equals it, when it is looked up after a success. If no object has the
name, it becomes a local and that is all: it is visible and is looked up with that value, and as
long as nobody loses a parent, every other name stands for exactly what it stood for. Nobody does if
the local is new, and deleting it then leads back to the world there was. -/
theorem names_written_by_layers {w : World} {s : Scope} {name : String} {v : Value}
    {chain : List ObjectId} (backs : w.Backs s) (held : ∀ h ∈ v.handles, h ∈ w.roots)
    (lineage : w.Lineage s.owner chain) :
    (isReserved name = true → ∀ n, perform (n + 1) Unit (.setName s name v) w =
      some (.error (.evaluation s!"cannot assign to reserved name '{name}'"), w)) ∧
    ((w.layer s.locals).get? name = none → ∀ n, perform (n + 1) Unit (.delName s name) w =
      some (.error (.nameResolution name), w)) ∧
    (∀ o, isReserved name = false → chain.find? (w.hasAttribute · name) = some o →
      (∀ n, perform (n + 1) _ (.setName s name v) w =
        perform (n + 1) _ (.setAttr (.object o) name v) w) ∧
      ((w.layer s.locals).get? name = none →
        (∀ p, w.supplier? o name = some p → w.Free ⟨p, name⟩) →
        Leads w (fun self => self Unit (.setName s name v)) fun r w' => r = .ok () →
          w.KeepsParents w' → Leads w' (fun self => self Value (.getName s name)) fun r _ =>
            ∃ x, r = .ok x ∧ (x = v ∨ w'.equal x v = true))) ∧
    (isReserved name = false → chain.find? (w.hasAttribute · name) = none →
      (∀ n, perform (n + 1) Unit (.setName s name v) w = some (.ok (), w.setLocal s name v) ∧
        perform (n + 1) Value (.getName s name) (w.setLocal s name v) =
          some (.ok v, w.setLocal s name v) ∧
        perform (n + 1) Bool (.query (.visible s name)) (w.setLocal s name v) =
          some (.ok true, w.setLocal s name v)) ∧
      (w.KeepsParents (w.setLocal s name v) → (w.setLocal s name v).Lineage s.owner chain ∧
        ∀ m, m ≠ name → (w.setLocal s name v).sources s chain m = w.sources s chain m) ∧
      ((w.layer s.locals).get? name = none → w.KeepsParents (w.setLocal s name v) ∧
        ∀ n, perform (n + 1) Unit (.delName s name) (w.setLocal s name v) = some (.ok (), w))) := by
  have there : s.locals.index < w.layers.size :=
    backs.intact.includes (backs.isLive (List.mem_cons_of_mem _ List.mem_cons_self))
  have local' : ((w.setLocal s name v).layer s.locals).get? name = some v := by
    rw [World.layer_setLocal there, Dict.get?_insert_self]
  have near := lineage.nearest? backs.descends name
  refine ⟨fun reserved n => setName_of_reserved _ reserved, fun unset n => delName_of_none unset,
    fun o free found => ?_, fun free missing => ?_⟩
  · rw [found] at near
    exact ⟨fun n => setName_of_nearest? _ free near, setName_reads_back backs held free near⟩
  · rw [missing] at near
    refine ⟨fun n => ⟨setName_of_none _ free near, ?_, ?_⟩, fun kept => ?_,
      fun unset => ⟨?_, fun n => ?_⟩⟩
    · refine (getName_of_plain _ (World.reserved?_of_free free)).trans ?_
      rw [local']
    · show some (Except.ok ((w.setLocal s name v).visible s name), _) = _
      rw [World.visible, Dict.contains, local']
      simp
    · have live : ∀ h ∈ v.handles, w.isLive h = true := fun h mem =>
        World.isLive_of_mem_roots (held h mem)
      have puts : w.Puts (.slot s.locals name) v (w.setLocal s name v) :=
        (World.Surveys.refl w).put_slot live there
      obtain ⟨lineage', same⟩ := (puts.resembles backs.descends kept).lineage backs.descends lineage
        (backs.intact.includes backs.owner) backs.owner
      exact ⟨lineage', fun m other => World.sources_setLocal there (same · · m) other⟩
    · exact World.keepsParents_setLocal there unset
    · refine (delName_of_some local').trans ?_
      rw [World.erase_setLocal unset]

namespace lastHolder

/-- A child whose parent is held by a local of the scope only. -/
def session : Program Unit := do
  let p ← .request (.newObject
    { typeName := "Item", parent := none, attributes := .ofList [("x", .int 7)], members := []
      constants := .empty, storage := .empty, config := none })
  .request (.keep "p" (.object p))
  let o ← .request (.newObject
    { typeName := "Item", parent := some p, attributes := .ofList [("y", .int 0)], members := []
      constants := .empty, storage := .empty, config := none })
  let l ← .request (.newLayer (.ofList [("n", .object p)]))
  .request (.keep "s" (.scope ⟨o, l, ⟨.empty, .empty⟩, none, none⟩))
  .request (.release .objects "p")

def start : World := (session.run (perform 12) (.initial #[])).elim (.initial #[]) Prod.snd

theorem reachable : Reachable start := (Reachable.start #[]).final 12 session

def scope : Scope := ⟨⟨1⟩, ⟨0⟩, ⟨.empty, .empty⟩, none, none⟩

theorem backs : start.Backs scope where
  descends := World.descends_of_reachable reachable
  intact := World.intact_iff.2 (by decide +kernel)
  held := by decide +kernel

theorem lineage_and_sources : start.parent? ⟨1⟩ = some ⟨0⟩ ∧ start.parent? ⟨0⟩ = none ∧
    [⟨1⟩, ⟨0⟩].find? (start.hasAttribute · "y") = some ⟨1⟩ ∧
    [⟨1⟩, ⟨0⟩].find? (start.hasAttribute · "k") = none ∧
    [⟨1⟩, ⟨0⟩].find? (start.hasAttribute · "n") = none ∧
    (start.layer scope.locals).get? "k" = none ∧ (start.layer scope.locals).get? "y" = none ∧
    start.sources scope [⟨1⟩, ⟨0⟩] "x" = [.attribute ⟨0⟩] ∧
    start.engineOf? ⟨1⟩ = none ∧ start.liveObservers (start.observersOf ⟨⟨1⟩, "y"⟩) = [] ∧
    start.supplier? ⟨1⟩ "y" = some ⟨1⟩ ∧
    start.visible scope "x" = true ∧
    (start.setLocal scope "n" (.int 1)).visible scope "x" = false := by
  decide +kernel

theorem lineage : start.Lineage scope.owner [⟨1⟩, ⟨0⟩] :=
  .next lineage_and_sources.1 (.last lineage_and_sources.2.1)

/-- A new local leaves `x` the attribute it was and can be deleted again, and an attribute of the
owner is read back. -/
theorem sets_and_deletes :
    (start.setLocal scope "k" (.int 1)).sources scope [⟨1⟩, ⟨0⟩] "x" = [.attribute ⟨0⟩] ∧
    (∀ n, perform (n + 1) _ (.delName scope "k") (start.setLocal scope "k" (.int 1)) =
      some (.ok (), start)) ∧
    Leads start (fun self => self Unit (.setName scope "y" (.int 1))) fun r w' => r = .ok () →
      start.KeepsParents w' → Leads w' (fun self => self Value (.getName scope "y")) fun r _ =>
        ∃ x, r = .ok x ∧ (x = .int 1 ∨ w'.equal x (.int 1) = true) := by
  obtain ⟨-, -, has, lacks, -, unset, unset', sources, unbound, unobserved, supplier, -⟩ :=
    lineage_and_sources
  have nothing : ∀ h ∈ (Value.int 1).handles, h ∈ start.roots := List.forall_mem_nil _
  obtain ⟨-, -, -, new⟩ := @names_written_by_layers start scope "k" (.int 1) _ backs nothing lineage
  obtain ⟨-, stays, deletes⟩ := new (by decide) lacks
  obtain ⟨kept, restores⟩ := deletes unset
  obtain ⟨-, same⟩ := stays kept
  obtain ⟨-, -, at', -⟩ := @names_written_by_layers start scope "y" (.int 1) _ backs nothing lineage
  obtain ⟨-, reads⟩ := at' ⟨1⟩ (by decide) has
  refine ⟨(same "x" (by decide)).trans sources, restores, reads unset' fun p there => ?_⟩
  cases supplier.symm.trans there
  exact ⟨fun e engine => (nomatch unbound.symm.trans engine), unobserved⟩

/-- No object has `n`, so it is assigned as a local. With the value that is replaced the parent
goes, and `x` is no longer visible. -/
theorem loses_parent : [⟨1⟩, ⟨0⟩].find? (start.hasAttribute · "n") = none ∧
    (∀ h ∈ (Value.int 1).handles, h ∈ start.roots) ∧
    (∀ n, perform (n + 1) Unit (.setName scope "n" (.int 1)) start =
      some (.ok (), start.setLocal scope "n" (.int 1))) ∧
    start.visible scope "x" = true ∧
    (start.setLocal scope "n" (.int 1)).visible scope "x" = false := by
  obtain ⟨-, -, -, -, missing, -, -, -, -, -, -, before, after⟩ := lineage_and_sources
  have near := lineage.nearest? backs.descends "n"
  rw [missing] at near
  have free : isReserved "n" = false := by decide
  refine ⟨missing, List.forall_mem_nil _, fun n => ?_, before, after⟩
  rw [perform_setName, setName_of_none _ free near]

end lastHolder

end LiveBinding
