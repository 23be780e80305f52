import LiveBinding.Proofs.Structure
import LiveBinding.World.Containers
import Mathlib.Data.List.Forall2

/-! Values that look the same in two worlds.

Whoever has a value in hand can look at what the value holds, and at nothing else. So two worlds
need to agree on that only: the rest of their tables may differ, and a container may have another
reference in each. Which reference stands for which is a relation on what can be in hand. -/
namespace LiveBinding

universe u v in
theorem map_eq_of_forall₂ {α : Type u} {β : Type v} {R : α → α → Prop} {xs ys : List α}
    {f g : α → β}
    (each : List.Forall₂ R xs ys) (same : ∀ x y, R x y → g y = f x) : ys.map g = xs.map f := by
  induction each with
  | nil => rfl
  | cons first _ ih => rw [List.map_cons, List.map_cons, same _ _ first, ih]

universe u in
theorem all_eq_of_forall₂ {α : Type u} {R : α → α → Prop} {xs ys : List α} {f g : α → Bool}
    (each : List.Forall₂ R xs ys) (same : ∀ x y, R x y → g y = f x) : ys.all g = xs.all f := by
  induction each with
  | nil => rfl
  | cons first _ ih => rw [List.all_cons, List.all_cons, ih, same _ _ first]

universe u in
theorem forall₂_of_mem {α : Type u} {R S : α → α → Prop} {xs ys : List α}
    (each : List.Forall₂ R xs ys) (next : ∀ x ∈ xs, ∀ y ∈ ys, R x y → S x y) :
    List.Forall₂ S xs ys := by
  induction each with
  | nil => exact .nil
  | @cons x y xs ys first _ ih =>
    refine .cons (next x List.mem_cons_self y List.mem_cons_self first) (ih fun x mem y mem' => ?_)
    exact next x (List.mem_cons_of_mem _ mem) y (List.mem_cons_of_mem _ mem')

universe u in
theorem getElem?_of_forall₂ {α : Type u} {R : α → α → Prop} {xs ys : List α} {n : Nat} {x : α}
    (each : List.Forall₂ R xs ys) (here : xs[n]? = some x) : ∃ y, ys[n]? = some y ∧ R x y := by
  obtain ⟨inside, rfl⟩ := List.getElem?_eq_some_iff.1 here
  have inside' := each.length_eq ▸ inside
  exact ⟨_, List.getElem?_eq_getElem inside', each.get inside inside'⟩

/-- The same keys in the same order, with related values. -/
def Dict.Rel (R : Value → Value → Prop) (d d' : Dict String Value) : Prop :=
  List.Forall₂ (fun e e' => e'.1 = e.1 ∧ R e.2 e'.2) d.entries d'.entries

theorem Dict.Rel.find {R : Value → Value → Prop} {es es' : List (String × Value)}
    (rel : List.Forall₂ (fun e e' => e'.1 = e.1 ∧ R e.2 e'.2) es es') (k : String) :
    Option.Rel R (Dict.find k es) (Dict.find k es') := by
  induction rel with
  | nil => exact .none
  | @cons e e' _ _ first _ ih =>
    obtain ⟨i, x⟩ := e
    obtain ⟨i', x'⟩ := e'
    obtain ⟨rfl, values⟩ := first
    simp only [Dict.find]
    split
    · exact .some values
    · exact ih

theorem Dict.Rel.get? {R : Value → Value → Prop} {d d' : Dict String Value} (rel : d.Rel R d')
    (k : String) : Option.Rel R (d.get? k) (d'.get? k) := Dict.Rel.find rel k

/-- The same value up to references: one scalar or thing that can be in hand in both places, or
containers that stand for each other. -/
inductive Value.Paired (H : Handle → Handle → Prop) : Value → Value → Prop where
  | atom {v : Value} (atom : v.isContainer = false) (hand : ∀ h ∈ v.handles, H h h) : Paired H v v
  | list {r r' : ListRef} (hand : H (.list r) (.list r')) : Paired H (.list r) (.list r')
  | map {r r' : MapRef} (hand : H (.map r) (.map r')) : Paired H (.map r) (.map r')

/-- What is the same in both places is paired with itself. -/
theorem Value.Paired.refl {H : Handle → Handle → Prop} {v : Value} (hand : ∀ h ∈ v.handles, H h h) :
    v.Paired H v := by
  cases v with
  | list r => exact .list (hand _ List.mem_cons_self)
  | map r => exact .map (hand _ List.mem_cons_self)
  | _ => exact .atom rfl hand

namespace World

theorem sameItems_congr {R S : Value → Value → Prop} {f g : Value → Value → Bool}
    {xs xs' ys ys' : List Value} (left : List.Forall₂ R xs xs') (right : List.Forall₂ S ys ys')
    (same : ∀ x x' y y', R x x' → S y y' → g x' y' = f x y) :
    sameItems g xs' ys' = sameItems f xs ys := by
  have all : ((xs'.zip ys').all fun p => g p.1 p.2) = (xs.zip ys).all fun p => f p.1 p.2 := by
    induction left generalizing ys ys' with
    | nil => rfl
    | cons first _ ih =>
      cases right with
      | nil => rfl
      | cons first' rest' =>
        simp only [List.zip_cons_cons, List.all_cons]
        rw [same _ _ _ _ first first', ih rest']
  rw [sameItems, sameItems, all, left.length_eq, right.length_eq]

theorem sameEntries_congr {R S : Value → Value → Prop} {f g : Value → Value → Bool}
    {d d' e e' : Dict String Value} (left : d.Rel R d') (right : e.Rel S e')
    (same : ∀ x x' y y', R x x' → S y y' → g x' y' = f x y) :
    sameEntries g d' e' = sameEntries f d e := by
  have sizes : d'.size = d.size ∧ e'.size = e.size := ⟨left.length_eq.symm, right.length_eq.symm⟩
  rw [sameEntries, sameEntries, sizes.1, sizes.2]
  refine congrArg _ (all_eq_of_forall₂ left fun p p' first => ?_)
  obtain ⟨keys, values⟩ := first
  have found := right.get? p.1
  rw [keys]
  generalize e.get? p.1 = y, e'.get? p.1 = y' at found
  cases found with
  | none => rfl
  | some values' => exact same _ _ _ _ values values'

/-- Values look the same to whoever has them in hand: things have the same names, and containers
that stand for each other have contents that do, and are identical only to containers that are. -/
structure SameLooks (H : Handle → Handle → Prop) (w w' : World) : Prop where
  nativeName : ∀ {f}, H (.native f) (.native f) → w'.nativeName f = w.nativeName f
  typeName : ∀ {o}, H (.object o) (.object o) → w'.typeName o = w.typeName o
  items : ∀ {r r'}, H (.list r) (.list r') → List.Forall₂ (Value.Paired H) (w.items r) (w'.items r')
  entries : ∀ {r r'}, H (.map r) (.map r') → (w.entries r).Rel (Value.Paired H) (w'.entries r')
  list : ∀ {r r' s s'}, H (.list r) (.list r') → H (.list s) (.list s') → (r' = s' ↔ r = s)
  map : ∀ {r r' s s'}, H (.map r) (.map r') → H (.map s) (.map s') → (r' = s' ↔ r = s)

/-- A value is looked into equally deep in both worlds, or to the bottom in both. -/
def SameDepth (w w' : World) (v v' : Value) : Prop :=
  w'.containers = w.containers ∨ w.Shallow w.containers v ∧ w'.Shallow w'.containers v'

instance decidableShallow (w : World) : (n : Nat) → (v : Value) → Decidable (w.Shallow n v)
  | 0, v => inferInstanceAs (Decidable (v.isContainer = false))
  | n + 1, v =>
    have (p : Value) : Decidable (w.Shallow n p) := decidableShallow w n p
    inferInstanceAs (Decidable (∀ p ∈ w.parts v, w.Shallow n p))

theorem Shallow.of_atom {w : World} {v : Value} (atom : v.isContainer = false) (n : Nat) :
    w.Shallow n v := Shallow.mono (n := 0) atom (Nat.zero_le n)

/-- Identical values are paired with themselves, and what they hold is. -/
theorem SameLooks.of_tables {w w' : World} (natives : w'.natives = w.natives)
    (typeName : ∀ o, w'.typeName o = w.typeName o) (lists : w'.lists = w.lists)
    (maps : w'.maps = w.maps) : w.SameLooks (fun g h => h = g) w' where
  nativeName _ := by rw [World.nativeName, World.nativeName, natives]
  typeName _ := typeName _
  items {r r'} same := by
    cases same
    rw [World.items, World.items, lists]
    exact List.forall₂_same.2 fun x _ => .refl fun _ _ => rfl
  entries {r r'} same := by
    cases same
    rw [World.entries, World.entries, maps]
    exact List.forall₂_same.2 fun e _ => ⟨rfl, .refl fun _ _ => rfl⟩
  list same same' := by
    cases same
    cases same'
    rfl
  map same same' := by
    cases same
    cases same'
    rfl

theorem equalWithin_of_atom {w : World} {v : Value} (atom : v.isContainer = false) (n : Nat)
    (y : Value) : w.equalWithin n v y = sameScalar v y := by
  cases v with
  | list | map => cases atom
  | _ => cases n <;> rfl

namespace SameLooks
variable {H : Handle → Handle → Prop} {w w' : World} {v v' x x' y y' key key' : Value} {n m : Nat}
variable (looks : w.SameLooks H w')
include looks

theorem typeNameOf (paired : v.Paired H v') : w'.typeNameOf v' = w.typeNameOf v := by
  cases paired with
  | list | map => rfl
  | atom _ hand =>
    cases v with
    | object o => exact looks.typeName (hand _ List.mem_cons_self)
    | _ => rfl

theorem describe {o : ObjectId} (hand : H (.object o) (.object o)) :
    w'.describe o = w.describe o := by
  rw [World.describe, World.describe, looks.typeName hand]

theorem isTrue (paired : v.Paired H v') : w'.isTrue v' = w.isTrue v := by
  have empty {α : Type} {R : α → α → Prop} {xs ys : List α} (each : List.Forall₂ R xs ys) :
      (!ys.isEmpty) = !xs.isEmpty := by
    cases each <;> rfl
  cases paired with
  | list hand => exact empty (looks.items hand)
  | map hand => exact empty (looks.entries hand)
  | atom atom _ =>
    cases v with
    | list | map => cases atom
    | _ => rfl

theorem scalarText (paired : v.Paired H v') : w'.scalarText v' = w.scalarText v := by
  cases paired with
  | list | map => rfl
  | atom _ hand =>
    cases v with
    | object o =>
      unfold World.scalarText
      dsimp only
      rw [looks.typeName (hand _ List.mem_cons_self)]
    | native f =>
      unfold World.scalarText
      dsimp only
      rw [looks.nativeName (hand _ List.mem_cons_self)]
    | _ => rfl

theorem scalarSnapshot (paired : v.Paired H v') : w'.scalarSnapshot v' = w.scalarSnapshot v := by
  cases paired with
  | list | map => rfl
  | atom _ hand =>
    cases v with
    | object o => exact congrArg Snapshot.object (looks.describe (hand _ List.mem_cons_self))
    | native f => exact congrArg Snapshot.native (looks.nativeName (hand _ List.mem_cons_self))
    | _ => rfl

theorem sameScalar (left : x.Paired H x') (right : y.Paired H y') :
    World.sameScalar x' y' = World.sameScalar x y := by
  cases left with
  | atom atom _ =>
    cases right with
    | atom => rfl
    | list | map =>
      cases x with
      | list | map => cases atom
      | _ => simp only [World.sameScalar, reduceCtorEq]
  | list hand =>
    cases right with
    | atom atom _ =>
      cases y with
      | list | map => cases atom
      | _ => simp only [World.sameScalar, reduceCtorEq]
    | list hand' => simp only [World.sameScalar, Value.list.injEq, looks.list hand hand']
    | map => simp only [World.sameScalar, reduceCtorEq]
  | map hand =>
    cases right with
    | atom atom _ =>
      cases y with
      | list | map => cases atom
      | _ => simp only [World.sameScalar, reduceCtorEq]
    | list => simp only [World.sameScalar, reduceCtorEq]
    | map hand' => simp only [World.sameScalar, Value.map.injEq, looks.map hand hand']

/-! ### Looking into values -/

/-- Induction on how deep one looks in each world. Where the depths differ, it is the bottom of the
value that ends it. -/
theorem depth_induction {P : Nat → Nat → Value → Value → Prop}
    (bottom : ∀ {v v' : Value}, v.Paired H v' → P 0 0 v v')
    (atom : ∀ {n m : Nat} {v : Value}, v.isContainer = false → v.Paired H v → P n m v v)
    (list : ∀ {n m : Nat} {r r' : ListRef}, H (.list r) (.list r') →
      List.Forall₂ (P n m) (w.items r) (w'.items r') → P (n + 1) (m + 1) (.list r) (.list r'))
    (map : ∀ {n m : Nat} {r r' : MapRef}, H (.map r) (.map r') →
      (w.entries r).Rel (P n m) (w'.entries r') → P (n + 1) (m + 1) (.map r) (.map r'))
    (deep : m = n ∨ w.Shallow n v ∧ w'.Shallow m v') (paired : v.Paired H v') : P n m v v' := by
  have leaf {n m : Nat} {v v' : Value} (paired : v.Paired H v')
      (flat : v.isContainer = false ∨ v'.isContainer = false) : P n m v v' := by
    cases paired with
    | atom scalar hand => exact atom scalar (.atom scalar hand)
    | list | map => rcases flat with ⟨⟨⟩⟩ | ⟨⟨⟩⟩
  induction n generalizing m v v' with
  | zero =>
    cases m with
    | zero => exact bottom paired
    | succ m => exact leaf paired (.inl (deep.resolve_left (Nat.succ_ne_zero m)).1)
  | succ n ih =>
    cases m with
    | zero => exact leaf paired (.inr (deep.resolve_left (Nat.succ_ne_zero n).symm).2)
    | succ m =>
      have each {p p' : Value} (part : p ∈ w.parts v) (part' : p' ∈ w'.parts v')
          (inner : p.Paired H p') : P n m p p' :=
        ih (deep.imp Nat.succ.inj fun shallow => ⟨shallow.1 p part, shallow.2 p' part'⟩) inner
      cases paired with
      | atom scalar hand => exact atom scalar (.atom scalar hand)
      | list hand =>
        exact list hand (forall₂_of_mem (looks.items hand) fun _ part _ part' => each part part')
      | map hand =>
        refine map hand (forall₂_of_mem (looks.entries hand) fun e mem e' mem' rel => ⟨rel.1, ?_⟩)
        exact each (List.mem_map_of_mem mem) (List.mem_map_of_mem mem') rel.2

/-- Values that stand for each other are equally deep. -/
theorem shallow (paired : v.Paired H v') (shallow : w.Shallow n v) : w'.Shallow n v' := by
  let P (n m : Nat) (v v' : Value) : Prop := w.Shallow n v → w'.Shallow m v'
  suffices all : P n n v v' from all shallow
  refine looks.depth_induction (fun paired shallow => ?_) (fun atom _ _ => .of_atom atom _)
    (fun {n m r r'} hand each shallow => ?_) (fun {n m r r'} hand each shallow => ?_)
    (.inl rfl) paired
  · cases paired with
    | atom atom _ => exact atom
    | list | map => cases shallow
  · have all : ∀ p ∈ w.items r, w.Shallow n p := shallow
    suffices ∀ p ∈ w'.items r', w'.Shallow m p from this
    generalize w.items r = xs, w'.items r' = xs' at each all
    induction each with
    | nil => exact nofun
    | cons first _ ih =>
      rw [List.forall_mem_cons] at all ⊢
      exact ⟨first all.1, ih all.2⟩
  · have all : ∀ e ∈ (w.entries r).entries, w.Shallow n e.2 :=
      fun e mem => shallow e.2 (List.mem_map_of_mem mem)
    suffices ∀ e ∈ (w'.entries r').entries, w'.Shallow m e.2 from List.forall_mem_map.2 this
    replace each : List.Forall₂ _ _ _ := each
    generalize (w.entries r).entries = es, (w'.entries r').entries = es' at each all
    induction each with
    | nil => exact nofun
    | cons first _ ih =>
      rw [List.forall_mem_cons] at all ⊢
      exact ⟨first.2 all.1, ih all.2⟩

theorem equal (deep : w.SameDepth w' x x') (left : x.Paired H x') (right : y.Paired H y') :
    w'.equal x' y' = w.equal x y := by
  let P (n m : Nat) (x x' : Value) : Prop :=
    ∀ y y' : Value, y.Paired H y' → w'.equalWithin m x' y' = w.equalWithin n x y
  suffices all : P w.containers w'.containers x x' from all y y' right
  refine looks.depth_induction (fun left y y' right => looks.sameScalar left right)
    (fun {n m v} atom left y y' right => ?_) (fun {n m r r'} hand each y y' right => ?_)
    (fun {n m r r'} hand each y y' right => ?_) deep left
  · rw [equalWithin_of_atom atom, equalWithin_of_atom atom, looks.sameScalar left right]
  · cases right with
    | list hand' =>
      have inner : sameItems (w'.equalWithin m) _ _ = sameItems (w.equalWithin n) _ _ :=
        sameItems_congr each (looks.items hand') fun x x' y y' same => same y y'
      simp only [equalWithin, looks.list hand hand', inner]
    | map hand' => exact looks.sameScalar (.list hand) (.map hand')
    | atom atom hand' =>
      cases y with
      | list | map => cases atom
      | _ => exact looks.sameScalar (.list hand) (.atom atom hand')
  · cases right with
    | map hand' =>
      have inner : sameEntries (w'.equalWithin m) _ _ = sameEntries (w.equalWithin n) _ _ :=
        sameEntries_congr each (looks.entries hand') fun x x' y y' same => same y y'
      simp only [equalWithin, looks.map hand hand', inner]
    | list hand' => exact looks.sameScalar (.map hand) (.list hand')
    | atom atom hand' =>
      cases y with
      | list | map => cases atom
      | _ => exact looks.sameScalar (.map hand) (.atom atom hand')

theorem textWithin (deep : m = n ∨ w.Shallow n v ∧ w'.Shallow m v') (paired : v.Paired H v') :
    w'.textWithin m v' = w.textWithin n v := by
  let P (n m : Nat) (v v' : Value) : Prop := w'.textWithin m v' = w.textWithin n v
  suffices all : P n m v v' from all
  refine looks.depth_induction looks.scalarText (fun {n m v} atom paired => ?_)
    (fun {n m r r'} _ each => ?_) (fun {n m r r'} _ each => ?_) deep paired
  · cases v with
    | list | map => cases atom
    | _ => cases n <;> cases m <;> exact looks.scalarText paired
  · show bracketed _ = bracketed _
    rw [map_eq_of_forall₂ each fun _ _ same => same]
  · refine congrArg braced (map_eq_of_forall₂ each fun e e' rel => ?_)
    rw [rel.1, rel.2]

theorem text (deep : w.SameDepth w' v v') (paired : v.Paired H v') : w'.text v' = w.text v :=
  looks.textWithin deep paired

theorem snapshotWithin (deep : m = n ∨ w.Shallow n v ∧ w'.Shallow m v') (paired : v.Paired H v') :
    w'.snapshotWithin m v' = w.snapshotWithin n v := by
  let P (n m : Nat) (v v' : Value) : Prop := w'.snapshotWithin m v' = w.snapshotWithin n v
  suffices all : P n m v v' from all
  refine looks.depth_induction looks.scalarSnapshot (fun {n m v} atom paired => ?_)
    (fun {n m r r'} _ each => ?_) (fun {n m r r'} _ each => ?_) deep paired
  · cases v with
    | list | map => cases atom
    | _ => cases n <;> cases m <;> exact looks.scalarSnapshot paired
  · show Snapshot.list _ = .list _
    rw [map_eq_of_forall₂ each fun _ _ same => same]
  · refine congrArg Snapshot.map (map_eq_of_forall₂ each fun e e' rel => ?_)
    rw [rel.1, rel.2]

theorem snapshot (deep : w.SameDepth w' v v') (paired : v.Paired H v') :
    w'.snapshot v' = w.snapshot v := looks.snapshotWithin deep paired

/-! ### Items -/

theorem badKey (deep : w.SameDepth w' key key') (paired : v.Paired H v')
    (paired' : key.Paired H key') : w'.badKey v' key' = w.badKey v key := by
  rw [World.badKey, World.badKey, looks.typeNameOf paired, looks.text deep paired']

theorem notSubscriptable (paired : v.Paired H v') :
    w'.notSubscriptable v' = w.notSubscriptable v := by
  rw [World.notSubscriptable, World.notSubscriptable, looks.typeNameOf paired]

/-- What is found at a key is found there in the other world, whatever else could be said of the
key. -/
theorem getItem (paired : v.Paired H v') (paired' : key.Paired H key')
    (found : w.getItem v key = .ok x) : ∃ x', w'.getItem v' key' = .ok x' ∧ x.Paired H x' := by
  unfold World.getItem at found ⊢
  split at found
  · next r i =>
    cases paired with
    | list hand =>
      cases paired' with
      | atom =>
        have each := looks.items hand
        rw [each.length_eq] at found
        split at found
        · next y there =>
          cases found
          obtain ⟨n, place, there⟩ := Option.bind_eq_some_iff.1 there
          obtain ⟨y', there', inner⟩ := getElem?_of_forall₂ each there
          refine ⟨y', ?_, inner⟩
          simp only [place, Option.bind_some, there']
        · cases found
    | atom atom => cases atom
  · next s i =>
    cases paired with
    | atom =>
      cases paired' with
      | atom =>
        refine ⟨x, ?_, ?_⟩
        · dsimp only
          split at found
          · exact found
          · cases found
        · split at found
          · cases found
            exact .atom rfl (List.forall_mem_nil _)
          · cases found
  · next r k =>
    cases paired with
    | map hand =>
      cases paired' with
      | atom =>
        have rel := (looks.entries hand).get? k
        dsimp only
        generalize (w.entries r).get? k = y, (w'.entries _).get? k = y' at rel found ⊢
        cases rel with
        | none => cases found
        | @some y y' inner =>
          cases found
          exact ⟨y', rfl, inner⟩
    | atom atom => cases atom
  all_goals cases found

end SameLooks

end World

end LiveBinding
