import LiveBinding.Proofs.Likeness
import LiveBinding.World.Rendering
import Mathlib.Data.Fintype.Sum
import Mathlib.Data.Nat.Order.Lemmas

/-! Equality by structure.

Containers are compared by reference first and by contents after that, and no deeper than there are
containers. `SameContents` knows nothing of references or of depth: it goes by what is in the
values. The two agree on all values that are built without floating-point numbers, whichever
containers these share. So equality is an equivalence there. -/
namespace LiveBinding

def Value.isContainer : Value → Bool
  | .list _ | .map _ => true
  | _ => false

namespace World
variable {w : World} {a b c v : Value} {n m : Nat}

/-- The text of a value that nothing is inside of is that of a scalar. -/
theorem text_eq_scalarText (w : World) (atom : v.isContainer = false) :
    w.text v = w.scalarText v := by
  unfold text
  cases w.containers with
  | zero => rfl
  | succ =>
    cases v with
    | list => cases atom
    | map => cases atom
    | _ => rfl

/-- What is directly inside a value. -/
def parts (w : World) : Value → List Value
  | .list r => w.items r
  | .map r => (w.entries r).entries.map Prod.snd
  | _ => []

/-- A value that is no floating-point number, made of values that were built before it. So there is
no such number in it at any depth, and no container is inside itself. -/
inductive Built (w : World) : Value → Prop where
  | intro {v : Value} (exact : ∀ x, v ≠ .float x) (known : w.Known v)
      (parts : ∀ p ∈ w.parts v, Built w p) : Built w v

/-- Identical up to the identities of lists and maps. -/
inductive SameContents (w : World) : Value → Value → Prop where
  | atom {v : Value} (atom : v.isContainer = false) : SameContents w v v
  | list {r s : ListRef} (length : (w.items r).length = (w.items s).length)
      (items : ∀ (i : Nat) x y, (w.items r)[i]? = some x → (w.items s)[i]? = some y →
        SameContents w x y) : SameContents w (.list r) (.list s)
  | map {r s : MapRef} (keys : ∀ k, (w.entries r).contains k = (w.entries s).contains k)
      (entries : ∀ k x y, (w.entries r).get? k = some x → (w.entries s).get? k = some y →
        SameContents w x y) : SameContents w (.map r) (.map s)

theorem mem_parts_of_get? {r : MapRef} {k : String} (found : (w.entries r).get? k = some v) :
    v ∈ w.parts (.map r) := List.mem_map.2 ⟨(k, v), Dict.get?_eq_some.1 found, rfl⟩

namespace Built

theorem atom (atom : v.isContainer = false) (exact : ∀ x, v ≠ .float x) : w.Built v := by
  refine .intro exact ?_ ?_
  · cases v with
    | list => cases atom
    | map => cases atom
    | _ => trivial
  · cases v with
    | list => cases atom
    | map => cases atom
    | _ => nofun

theorem list {r : ListRef} {xs : List Value} (found : w.lists[r.index]? = some xs)
    (items : ∀ x ∈ xs, w.Built x) : w.Built (.list r) := by
  refine .intro (fun _ => nofun) (Array.getElem?_eq_some_iff.1 found).1 ?_
  rwa [parts, World.items, found]

theorem map {r : MapRef} {d : Dict String Value} (found : w.maps[r.index]? = some d)
    (entries : ∀ x ∈ d.entries.map Prod.snd, w.Built x) : w.Built (.map r) := by
  refine .intro (fun _ => nofun) (Array.getElem?_eq_some_iff.1 found).1 ?_
  rwa [parts, World.entries, found]

theorem part (built : w.Built v) : ∀ p ∈ w.parts v, w.Built p := by
  obtain ⟨_, _, parts⟩ := built
  exact parts

theorem not_float (built : w.Built v) : ∀ x, v ≠ .float x := by
  obtain ⟨exact, _, _⟩ := built
  exact exact

end Built

/-! ### An equivalence -/

namespace SameContents

theorem refl (built : w.Built v) : w.SameContents v v := by
  induction built with
  | @intro v _ _ _ ih =>
    cases v with
    | list r =>
      refine .list rfl fun i x y here there => ?_
      cases here.symm.trans there
      exact ih x (List.mem_of_getElem? here)
    | map r =>
      refine .map (fun _ => rfl) fun k x y here there => ?_
      cases here.symm.trans there
      exact ih x (mem_parts_of_get? here)
    | _ => exact .atom rfl

theorem symm (same : w.SameContents a b) : w.SameContents b a := by
  induction same with
  | atom atom => exact .atom atom
  | list length _ ih => exact .list length.symm fun i y x there here => ih i x y here there
  | map keys _ ih => exact .map (fun k => (keys k).symm) fun k y x there here => ih k x y here there

theorem trans (same : w.SameContents a b) (same' : w.SameContents b c) : w.SameContents a c := by
  induction same generalizing c with
  | atom _ => exact same'
  | @list r s length _ ih =>
    cases same' with
    | atom atom => cases atom
    | list length' items' =>
      refine .list (length.trans length') fun i x z here there => ?_
      obtain ⟨inside, _⟩ := List.getElem?_eq_some_iff.1 here
      have middle := List.getElem?_eq_getElem (length ▸ inside)
      exact ih i x _ here middle (items' i _ z middle there)
  | @map r s keys _ ih =>
    cases same' with
    | atom atom => cases atom
    | map keys' entries' =>
      refine .map (fun k => (keys k).trans (keys' k)) fun k x z here there => ?_
      have known : (w.entries s).contains k = true := by
        rw [← keys k, Dict.contains, here]
        rfl
      obtain ⟨y, middle⟩ := Option.isSome_iff_exists.1 known
      exact ih k x y here middle (entries' k y z middle there)

end SameContents

/-! ### Depth

A value nested deeper than there are containers would have a container of each depth inside, and
these are different containers. -/

/-- At most so many containers are inside each other. -/
def Shallow (w : World) : Nat → Value → Prop
  | 0, v => v.isContainer = false
  | n + 1, v => ∀ p ∈ w.parts v, w.Shallow n p

/-- One container more than `n` are inside each other. -/
def Deep (w : World) (n : Nat) (v : Value) : Prop := w.Shallow (n + 1) v ∧ ¬w.Shallow n v

theorem Shallow.succ (shallow : w.Shallow n v) : w.Shallow (n + 1) v := by
  induction n generalizing v with
  | zero =>
    intro p mem
    cases v with
    | list => cases shallow
    | map => cases shallow
    | _ => cases mem
  | succ n ih => exact fun p mem => ih (shallow p mem)

theorem Shallow.mono (shallow : w.Shallow n v) (deeper : n ≤ m) : w.Shallow m v := by
  induction deeper with
  | refl => exact shallow
  | step _ ih => exact ih.succ

theorem exists_shallow_of_forall {values : List Value} (each : ∀ v ∈ values, ∃ n, w.Shallow n v) :
    ∃ n, ∀ v ∈ values, w.Shallow n v := by
  induction values with
  | nil => exact ⟨0, fun _ mem => nomatch mem⟩
  | cons v rest ih =>
    obtain ⟨n, first⟩ := each v List.mem_cons_self
    obtain ⟨m, others⟩ := ih fun v mem => each v (List.mem_cons_of_mem _ mem)
    refine ⟨max n m, List.forall_mem_cons.2 ⟨first.mono (Nat.le_max_left ..), fun v mem => ?_⟩⟩
    exact (others v mem).mono (Nat.le_max_right ..)

theorem Built.exists_shallow (built : w.Built v) : ∃ n, w.Shallow n v := by
  induction built with
  | intro _ _ _ ih =>
    obtain ⟨n, shallow⟩ := exists_shallow_of_forall ih
    exact ⟨n + 1, shallow⟩

namespace Deep

theorem unique (deep : w.Deep n v) (deep' : w.Deep m v) : n = m := by
  have least {n m : Nat} (deep : w.Deep n v) (deep' : w.Deep m v) : n ≤ m :=
    Nat.le_of_not_lt fun less => deep.2 (deep'.1.mono less)
  exact Nat.le_antisymm (least deep deep') (least deep' deep)

theorem isContainer (deep : w.Deep n v) : v.isContainer = true := by
  by_contra atom
  have shallow : w.Shallow 0 v := Bool.eq_false_iff.2 atom
  exact deep.2 (shallow.mono (Nat.zero_le n))

theorem exists_part (deep : w.Deep (n + 1) v) : ∃ p ∈ w.parts v, w.Deep n p := by
  by_contra none
  refine deep.2 fun p mem => ?_
  by_contra deeper
  exact none ⟨p, mem, deep.1 p mem, deeper⟩

/-- Inside is a container of each smaller depth. -/
theorem exists_built (deep : w.Deep n v) (built : w.Built v) (less : m ≤ n) :
    ∃ v, w.Built v ∧ w.Deep m v := by
  induction n generalizing v with
  | zero =>
    obtain rfl : m = 0 := by omega
    exact ⟨v, built, deep⟩
  | succ n ih =>
    by_cases same : m = n + 1
    · subst same
      exact ⟨v, built, deep⟩
    · obtain ⟨p, mem, deep⟩ := deep.exists_part
      exact ih deep (built.part p mem) (by omega)

end Deep

/-- The containers there are. -/
def container (w : World) : Fin w.lists.size ⊕ Fin w.maps.size → Value
  | .inl i => .list ⟨i⟩
  | .inr i => .map ⟨i⟩

theorem Built.exists_container (built : w.Built v) (container : v.isContainer = true) :
    ∃ i, w.container i = v := by
  obtain ⟨_, known, _⟩ := built
  cases v with
  | list r => exact ⟨.inl ⟨r.index, known⟩, rfl⟩
  | map r => exact ⟨.inr ⟨r.index, known⟩, rfl⟩
  | _ => cases container

theorem Deep.lt_containers (deep : w.Deep n v) (built : w.Built v) : n < w.containers := by
  have each (k : Fin (n + 1)) : ∃ i, w.Deep k (w.container i) := by
    obtain ⟨v, built, deep⟩ := deep.exists_built built (Nat.le_of_lt_succ k.isLt)
    obtain ⟨i, rfl⟩ := built.exists_container deep.isContainer
    exact ⟨i, deep⟩
  choose place deep using each
  have different : Function.Injective place := fun k l same => by
    have deep' := deep l
    rw [← same] at deep'
    exact Fin.ext ((deep k).unique deep')
  refine Nat.lt_of_succ_le ?_
  simpa [containers] using Fintype.card_le_of_injective place different

/-- Looking as deep as there are containers is deep enough. -/
theorem Built.shallow (built : w.Built v) : w.Shallow w.containers v := by
  by_contra deeper
  obtain ⟨n, shallow⟩ := built.exists_shallow
  obtain ⟨m, deeper, shallow⟩ := Nat.exists_not_and_succ_of_not_zero_of_exists
    (p := fun m => w.Shallow (w.containers + m) v) deeper ⟨n, shallow.mono (Nat.le_add_left ..)⟩
  exact absurd (Deep.lt_containers ⟨shallow, deeper⟩ built) (Nat.not_lt.2 (Nat.le_add_right ..))

/-! ### Equality -/

theorem Built.eq_of_sameScalar (left : w.Built a) (right : w.Built b)
    (equal : sameScalar a b = true) : a = b := by
  cases a with
  | float x => exact absurd rfl (left.not_float x)
  | _ =>
    cases b with
    | float y => exact absurd rfl (right.not_float y)
    | _ => exact of_decide_eq_true equal

theorem sameContents_of_equalWithin (left : w.Built a) (right : w.Built b)
    (equal : w.equalWithin n a b = true) : w.SameContents a b := by
  have scalar {a b : Value} (left : w.Built a) (right : w.Built b)
      (equal : sameScalar a b = true) : w.SameContents a b :=
    left.eq_of_sameScalar right equal ▸ .refl left
  induction n generalizing a b with
  | zero => exact scalar left right equal
  | succ n ih =>
    cases a with
    | list r =>
      cases b with
      | list s =>
        rcases Bool.or_eq_true_iff.1 equal with same | equal
        · rw [← of_decide_eq_true same]
          exact .refl left
        · obtain ⟨length, items⟩ := sameItems_iff.1 equal
          exact .list length fun i x y here there =>
            ih (left.part x (List.mem_of_getElem? here)) (right.part y (List.mem_of_getElem? there))
              (items i x y here there)
      | _ => exact scalar left right equal
    | map r =>
      cases b with
      | map s =>
        rcases Bool.or_eq_true_iff.1 equal with same | equal
        · rw [← of_decide_eq_true same]
          exact .refl left
        · obtain ⟨keys, entries⟩ := sameEntries_iff.1 equal
          exact .map keys fun k x y here there =>
            ih (left.part x (mem_parts_of_get? here)) (right.part y (mem_parts_of_get? there))
              (entries k x y here there)
      | _ => exact scalar left right equal
    | _ => exact scalar left right equal

theorem equalWithin_of_sameContents (built : w.Built a) (shallow : w.Shallow n a)
    (same : w.SameContents a b) : w.equalWithin n a b = true := by
  induction same generalizing n with
  | @atom v _ =>
    have scalar : sameScalar v v = true := by
      cases v with
      | float x => exact absurd rfl (built.not_float x)
      | _ => simp [sameScalar]
    exact equalWithin_of_eq n scalar
  | list length _ ih =>
    cases n with
    | zero => cases shallow
    | succ n =>
      refine Bool.or_eq_true_iff.2 (.inr (sameItems_iff.2 ⟨length, fun i x y here there => ?_⟩))
      have mem := List.mem_of_getElem? here
      exact ih i x y here there (built.part x mem) (shallow x mem)
  | map keys _ ih =>
    cases n with
    | zero => cases shallow
    | succ n =>
      refine Bool.or_eq_true_iff.2 (.inr (sameEntries_iff.2 ⟨keys, fun k x y here there => ?_⟩))
      have mem := mem_parts_of_get? here
      exact ih k x y here there (built.part x mem) (shallow x mem)

theorem equal_iff_sameContents (left : w.Built a) (right : w.Built b) :
    w.equal a b = true ↔ w.SameContents a b :=
  ⟨sameContents_of_equalWithin left right, equalWithin_of_sameContents left left.shallow⟩

end World

/-- **Equality is an equivalence that goes by contents alone.** Among values that are built without
floating-point numbers, every value equals itself, equality holds in both orders, and what equals a
third equals the other. Comparing the references first makes no difference: two values are equal if
and only if they are the same up to the identities of containers, lists item by item and maps by
their keys. -/
theorem equality_by_contents (w : World) :
    (∀ a, w.Built a → w.equal a a = true) ∧
    (∀ a b, w.Built a → w.Built b → w.equal a b = true → w.equal b a = true) ∧
    (∀ a b c, w.Built a → w.Built b → w.Built c → w.equal a b = true → w.equal b c = true →
      w.equal a c = true) ∧
    ∀ a b, w.Built a → w.Built b → (w.equal a b = true ↔ w.SameContents a b) := by
  refine ⟨fun a built => ?_, fun a b left right equal => ?_,
    fun a b c left middle right equal equal' => ?_, fun a b => World.equal_iff_sameContents⟩
  · exact (World.equal_iff_sameContents built built).2 (.refl built)
  · rw [World.equal_iff_sameContents left right] at equal
    exact (World.equal_iff_sameContents right left).2 equal.symm
  · rw [World.equal_iff_sameContents left middle] at equal
    rw [World.equal_iff_sameContents middle right] at equal'
    exact (World.equal_iff_sameContents left right).2 (equal.trans equal')

namespace crates
open World

/-- Two crates with the same fruit: the one holds the same basket twice, the other two baskets.
Three labels are on them, each on another crate and basket. -/
def world : World :=
  { World.initial #[] with
    lists := #[[.str "fig", .int 3], [.str "fig", .int 3], [.list ⟨0⟩, .list ⟨0⟩],
      [.list ⟨0⟩, .list ⟨1⟩]]
    maps := #[.ofList [("all", .list ⟨2⟩), ("one", .list ⟨0⟩)],
      .ofList [("one", .list ⟨1⟩), ("all", .list ⟨3⟩)],
      .ofList [("all", .list ⟨2⟩), ("one", .list ⟨1⟩)]] }

theorem built_pair {a b : Value} (left : world.Built a) (right : world.Built b) :
    ∀ v ∈ [a, b], world.Built v :=
  List.forall_mem_cons.2 ⟨left, List.forall_mem_singleton.2 right⟩

theorem built_basket (i : Fin 2) : world.Built (.list ⟨i⟩) := by
  have fruit : ∀ v ∈ [.str "fig", .int 3], world.Built v :=
    built_pair (.atom rfl fun _ => nofun) (.atom rfl fun _ => nofun)
  match i with
  | 0 => exact .list rfl fruit
  | 1 => exact .list rfl fruit

theorem built_label (i : Fin 3) : world.Built (.map ⟨i⟩) := by
  have shared : world.Built (.list ⟨2⟩) := .list rfl (built_pair (built_basket 0) (built_basket 0))
  have apart : world.Built (.list ⟨3⟩) := .list rfl (built_pair (built_basket 0) (built_basket 1))
  match i with
  | 0 => exact .map rfl (built_pair shared (built_basket 0))
  | 1 => exact .map rfl (built_pair (built_basket 1) apart)
  | 2 => exact .map rfl (built_pair shared (built_basket 1))

/-- The labels are equal, for their contents are the same. -/
theorem labels_equal :
    (∀ i : Fin 3, world.Built (.map ⟨i⟩)) ∧
    world.equal (.map ⟨0⟩) (.map ⟨0⟩) = true ∧ world.equal (.map ⟨1⟩) (.map ⟨0⟩) = true ∧
    world.equal (.map ⟨0⟩) (.map ⟨2⟩) = true ∧ world.SameContents (.map ⟨0⟩) (.map ⟨1⟩) ∧
    ¬world.SameContents (.map ⟨0⟩) (.list ⟨0⟩) := by
  obtain ⟨refl, symm, trans, contents⟩ := equality_by_contents world
  have equal : world.equal (.map ⟨0⟩) (.map ⟨1⟩) = true := by decide +kernel
  have equal' : world.equal (.map ⟨1⟩) (.map ⟨2⟩) = true := by decide +kernel
  have different : world.equal (.map ⟨0⟩) (.list ⟨0⟩) ≠ true := by decide +kernel
  exact ⟨built_label, refl _ (built_label 0), symm _ _ (built_label 0) (built_label 1) equal,
    trans _ _ _ (built_label 0) (built_label 1) (built_label 2) equal equal',
    (contents _ _ (built_label 0) (built_label 1)).1 equal,
    mt (contents _ _ (built_label 0) (built_basket 0)).2 different⟩

end crates

end LiveBinding
