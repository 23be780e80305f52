import LiveBinding.Proofs.Growth
import LiveBinding.World.Equality
import Mathlib.Data.List.Perm.Subperm

/-! Values that count as the same.

`Alike` is equality with one difference: a value that is not a number equals itself.
`Twin` values have the same structure down to their scalars; they are what a function
that builds its result anew returns for the same arguments. -/
namespace LiveBinding.World
variable {w w' : World} {a b c : Value}

/-- The container a value refers to exists. -/
def Known (w : World) : Value → Prop
  | .list r => r.index < w.lists.size
  | .map r => r.index < w.maps.size
  | _ => True

/-- Containers contain only what exists. -/
structure Whole (w : World) : Prop where
  items : ∀ {i : Nat} {xs}, w.lists[i]? = some xs → ∀ x ∈ xs, w.Known x
  entries : ∀ {i : Nat} {d}, w.maps[i]? = some d → ∀ {k x}, d.get? k = some x → w.Known x

inductive Alike (w : World) : Value → Value → Prop where
  | same (a : Value) : Alike w a a
  | scalar {a b : Value} (equal : sameScalar a b = true) : Alike w a b
  | list {r s : ListRef} {xs ys : List Value} (left : w.lists[r.index]? = some xs)
      (right : w.lists[s.index]? = some ys) (length : xs.length = ys.length)
      (items : ∀ (i : Nat) a b, xs[i]? = some a → ys[i]? = some b → Alike w a b) :
      Alike w (.list r) (.list s)
  | map {r s : MapRef} {d e : Dict String Value} (left : w.maps[r.index]? = some d)
      (right : w.maps[s.index]? = some e) (size : d.size = e.size)
      (keys : ∀ k, d.contains k = true → e.contains k = true)
      (entries : ∀ k a b, d.get? k = some a → e.get? k = some b → Alike w a b) :
      Alike w (.map r) (.map s)

inductive Twin (w : World) : Value → Value → Prop where
  | same (a : Value) : Twin w a a
  | list {r s : ListRef} {xs ys : List Value} (left : w.lists[r.index]? = some xs)
      (right : w.lists[s.index]? = some ys) (length : xs.length = ys.length)
      (items : ∀ (i : Nat) a b, xs[i]? = some a → ys[i]? = some b → Twin w a b) :
      Twin w (.list r) (.list s)
  | map {r s : MapRef} {d e : Dict String Value} (left : w.maps[r.index]? = some d)
      (right : w.maps[s.index]? = some e) (size : d.size = e.size)
      (keys : ∀ k, d.contains k = true → e.contains k = true)
      (entries : ∀ k a b, d.get? k = some a → e.get? k = some b → Twin w a b) :
      Twin w (.map r) (.map s)

/-! ### Twins -/

theorem Twin.alike (twin : w.Twin a b) : w.Alike a b := by
  induction twin with
  | same a => exact .same a
  | list left right length _ ih => exact .list left right length ih
  | map left right size keys _ ih => exact .map left right size keys ih

theorem sameScalar_list {v : Value} {r : ListRef} (equal : sameScalar v (.list r) = true) :
    v = .list r := by
  cases v <;> simp_all [sameScalar]

theorem sameScalar_map {v : Value} {r : MapRef} (equal : sameScalar v (.map r) = true) :
    v = .map r := by
  cases v <;> simp_all [sameScalar]

/-- What is like a value is like its twins. -/
theorem Alike.twin (alike : w.Alike a b) (twin : w.Twin b c) : w.Alike a c := by
  induction twin generalizing a with
  | same b => exact alike
  | @list r s xs ys left right length items ih =>
    cases alike with
    | same => exact (Twin.list left right length items).alike
    | scalar equal =>
      rw [sameScalar_list equal]
      exact (Twin.list left right length items).alike
    | @list q _ zs _ first second short each =>
      rw [left] at second
      cases second
      refine .list first right (short.trans length) fun i x z here there => ?_
      have inside : i < xs.length := by
        obtain ⟨inside, _⟩ := List.getElem?_eq_some_iff.1 there
        omega
      have middle := List.getElem?_eq_getElem inside
      exact ih i _ z middle there (each i x _ here middle)
  | @map r s d e left right size keys entries ih =>
    cases alike with
    | same => exact (Twin.map left right size keys entries).alike
    | scalar equal =>
      rw [sameScalar_map equal]
      exact (Twin.map left right size keys entries).alike
    | @map q _ f _ first second short names each =>
      rw [left] at second
      cases second
      refine .map first right (short.trans size) (fun k known => keys k (names k known)) ?_
      intro k x z here there
      have known : (d.get? k).isSome = true := by
        apply names k
        rw [Dict.contains, here]
        rfl
      obtain ⟨y, middle⟩ := Option.isSome_iff_exists.1 known
      exact ih k y z middle there (each k x y here middle)

/-! ### Equality -/

theorem known_list {r : ListRef} (known : w.Known (.list r)) :
    ∃ xs, w.lists[r.index]? = some xs ∧ w.items r = xs := by
  have inside : r.index < w.lists.size := known
  refine ⟨w.lists[r.index], Array.getElem?_eq_getElem inside, ?_⟩
  rw [items, Array.getElem?_eq_getElem inside]
  rfl

theorem known_map {r : MapRef} (known : w.Known (.map r)) :
    ∃ d, w.maps[r.index]? = some d ∧ w.entries r = d := by
  have inside : r.index < w.maps.size := known
  refine ⟨w.maps[r.index], Array.getElem?_eq_getElem inside, ?_⟩
  rw [entries, Array.getElem?_eq_getElem inside]
  rfl

theorem sameItems_iff {eq : Value → Value → Bool} {xs ys : List Value} :
    sameItems eq xs ys = true ↔ xs.length = ys.length ∧
      ∀ (i : Nat) x y, xs[i]? = some x → ys[i]? = some y → eq x y = true := by
  rw [sameItems, Bool.and_eq_true, beq_iff_eq, List.all_eq_true]
  refine and_congr_right fun _ => ⟨fun equal i x y here there => ?_, fun equal ⟨x, y⟩ mem => ?_⟩
  · refine equal (x, y) ?_
    rw [List.mem_iff_getElem?]
    exact ⟨i, List.getElem?_zip_eq_some.2 ⟨here, there⟩⟩
  · rw [List.mem_iff_getElem?] at mem
    obtain ⟨i, pair⟩ := mem
    obtain ⟨here, there⟩ := List.getElem?_zip_eq_some.1 pair
    exact equal i x y here there

/-- Only the keys of one side are looked at, but there are as many on the other. -/
theorem sameEntries_iff {eq : Value → Value → Bool} {d e : Dict String Value} :
    sameEntries eq d e = true ↔ (∀ k, d.contains k = e.contains k) ∧
      ∀ k x y, d.get? k = some x → e.get? k = some y → eq x y = true := by
  rw [sameEntries, Bool.and_eq_true, beq_iff_eq, List.all_eq_true]
  constructor
  · rintro ⟨size, equal⟩
    have found {k : String} {x : Value} (here : d.get? k = some x) :
        ∃ y, e.get? k = some y ∧ eq x y = true := by
      have equal := equal (k, x) (Dict.get?_eq_some.1 here)
      cases there : e.get? k with
      | none => simp [there] at equal
      | some y => exact ⟨y, rfl, by simpa [there] using equal⟩
    have inside : d.keys ⊆ e.keys := fun k mem => by
      obtain ⟨x, here⟩ := Option.isSome_iff_exists.1 (Dict.mem_keys.1 mem)
      obtain ⟨y, there, _⟩ := found here
      exact Dict.mem_keys.2 (Option.isSome_iff_exists.2 ⟨y, there⟩)
    have keys : d.keys.Perm e.keys := by
      refine (d.nodup.subperm inside).perm_of_length_le ?_
      simp only [Dict.keys, List.length_map]
      exact Nat.le_of_eq size.symm
    refine ⟨fun k => Bool.eq_iff_iff.2 ?_, fun k x y here there => ?_⟩
    · rw [← Dict.mem_keys, ← Dict.mem_keys]
      exact keys.mem_iff
    · obtain ⟨z, known, equal⟩ := found here
      obtain rfl : y = z := Option.some.inj (there.symm.trans known)
      exact equal
  · rintro ⟨keys, equal⟩
    constructor
    · have same : d.keys.Perm e.keys := by
        refine (List.perm_ext_iff_of_nodup d.nodup e.nodup).2 fun k => ?_
        rw [← Dict.keys, ← Dict.keys, Dict.mem_keys, Dict.mem_keys, keys k]
      simpa [Dict.keys, Dict.size] using same.length_eq
    · rintro ⟨k, x⟩ mem
      have here := Dict.get?_eq_some.2 mem
      have known : e.contains k = true := by
        rw [← keys k, Dict.contains, here]
        rfl
      obtain ⟨y, there⟩ := Option.isSome_iff_exists.1 known
      simp only [there]
      exact equal k x y here there

theorem alike_of_sameItems {eq : Value → Value → Bool} {r s : ListRef} {xs ys : List Value}
    (left : w.lists[r.index]? = some xs) (right : w.lists[s.index]? = some ys)
    (equal : sameItems eq xs ys = true)
    (each : ∀ x ∈ xs, ∀ y ∈ ys, eq x y = true → w.Alike x y) : w.Alike (.list r) (.list s) := by
  obtain ⟨length, equal⟩ := sameItems_iff.1 equal
  refine .list left right length fun i x y here there => ?_
  exact each x (List.mem_of_getElem? here) y (List.mem_of_getElem? there) (equal i x y here there)

theorem alike_of_sameEntries {eq : Value → Value → Bool} {r s : MapRef}
    {d e : Dict String Value} (left : w.maps[r.index]? = some d)
    (right : w.maps[s.index]? = some e) (same : sameEntries eq d e = true)
    (each : ∀ k x y, d.get? k = some x → e.get? k = some y → eq x y = true → w.Alike x y) :
    w.Alike (.map r) (.map s) := by
  obtain ⟨keys, equal⟩ := sameEntries_iff.1 same
  rw [sameEntries, Bool.and_eq_true, beq_iff_eq] at same
  exact .map left right same.1 (fun k known => keys k ▸ known) fun k x y here there =>
    each k x y here there (equal k x y here there)

/-- Equal values that exist are alike. -/
theorem alike_of_equalWithin (whole : w.Whole) {fuel : Nat} (left : w.Known a)
    (right : w.Known b) (equal : w.equalWithin fuel a b = true) : w.Alike a b := by
  induction fuel generalizing a b with
  | zero => exact .scalar (by simpa [equalWithin] using equal)
  | succ fuel ih =>
    cases a with
    | list r =>
      cases b with
      | list s =>
        rcases Bool.or_eq_true_iff.1 equal with same | equal
        · rw [of_decide_eq_true same]
          exact .same _
        · obtain ⟨xs, here, items⟩ := known_list left
          obtain ⟨ys, there, items'⟩ := known_list right
          rw [items, items'] at equal
          exact alike_of_sameItems here there equal fun x memX y memY =>
            ih (whole.items here x memX) (whole.items there y memY)
      | _ => exact .scalar equal
    | map r =>
      cases b with
      | map s =>
        rcases Bool.or_eq_true_iff.1 equal with same | equal
        · rw [of_decide_eq_true same]
          exact .same _
        · obtain ⟨d, here, entries⟩ := known_map left
          obtain ⟨e, there, entries'⟩ := known_map right
          rw [entries, entries'] at equal
          exact alike_of_sameEntries here there equal fun k x y memX memY =>
            ih (whole.entries here memX) (whole.entries there memY)
      | _ => exact .scalar equal
    | _ => exact .scalar equal

theorem alike_of_equal (whole : w.Whole) (left : w.Known a) (right : w.Known b)
    (equal : w.equal a b = true) : w.Alike a b := alike_of_equalWithin whole left right equal

/-! ### Growth -/

theorem Alike.mono (grows : w.Extends w') (alike : w.Alike a b) : w'.Alike a b := by
  induction alike with
  | same a => exact .same a
  | scalar equal => exact .scalar equal
  | list left right length _ ih => exact .list (grows.lists left) (grows.lists right) length ih
  | map left right size keys _ ih =>
    exact .map (grows.maps left) (grows.maps right) size keys ih

theorem Twin.mono (grows : w.Extends w') (twin : w.Twin a b) : w'.Twin a b := by
  induction twin with
  | same a => exact .same a
  | list left right length _ ih => exact .list (grows.lists left) (grows.lists right) length ih
  | map left right size keys _ ih =>
    exact .map (grows.maps left) (grows.maps right) size keys ih

theorem Known.mono (grows : w.Extends w') {v : Value} (known : w.Known v) : w'.Known v := by
  cases v with
  | list r =>
    obtain ⟨xs, here, _⟩ := known_list known
    exact (Array.getElem?_eq_some_iff.1 (grows.lists here)).1
  | map r =>
    obtain ⟨d, here, _⟩ := known_map known
    exact (Array.getElem?_eq_some_iff.1 (grows.maps here)).1
  | _ => trivial

/-! ### Equality in either order -/

theorem sameScalar_comm (a b : Value) : sameScalar a b = sameScalar b a := by
  have flip (a b : Value) : decide (a = b) = decide (b = a) := decide_eq_decide.2 eq_comm
  have float (x y : Binary64) : x.equal y = y.equal x := by
    simp only [Binary64.equal, Bool.and_comm, BEq.comm]
  cases a <;> cases b <;> first | exact flip _ _ | exact float _ _ | rfl

theorem sameItems_of_flip {eq eq' : Value → Value → Bool} {xs ys : List Value}
    (each : ∀ x ∈ xs, ∀ y ∈ ys, eq x y = true → eq' y x = true)
    (same : sameItems eq xs ys = true) : sameItems eq' ys xs = true := by
  obtain ⟨length, equal⟩ := sameItems_iff.1 same
  refine sameItems_iff.2 ⟨length.symm, fun i y x there here => ?_⟩
  exact each x (List.mem_of_getElem? here) y (List.mem_of_getElem? there) (equal i x y here there)

theorem sameEntries_of_flip {eq eq' : Value → Value → Bool} {d e : Dict String Value}
    (each : ∀ k x y, d.get? k = some x → e.get? k = some y → eq x y = true → eq' y x = true)
    (same : sameEntries eq d e = true) : sameEntries eq' e d = true := by
  obtain ⟨keys, equal⟩ := sameEntries_iff.1 same
  exact sameEntries_iff.2 ⟨fun k => (keys k).symm, fun k y x there here =>
    each k x y here there (equal k x y here there)⟩

theorem equalWithin_of_flip {fuel : Nat} (equal : w.equalWithin fuel a b = true) :
    w.equalWithin fuel b a = true := by
  have scalar (a b : Value) (equal : sameScalar a b = true) : sameScalar b a = true :=
    (sameScalar_comm b a).trans equal
  induction fuel generalizing a b with
  | zero => exact scalar a b equal
  | succ fuel ih =>
    cases a with
    | list r =>
      cases b with
      | list s =>
        rw [equalWithin, Bool.or_eq_true, decide_eq_true_eq] at equal ⊢
        exact equal.imp Eq.symm (sameItems_of_flip fun _ _ _ _ => ih)
      | _ => exact scalar _ _ equal
    | map r =>
      cases b with
      | map s =>
        rw [equalWithin, Bool.or_eq_true, decide_eq_true_eq] at equal ⊢
        exact equal.imp Eq.symm (sameEntries_of_flip fun _ _ _ _ _ => ih)
      | _ => exact scalar _ _ equal
    | _ => cases b <;> exact scalar _ _ equal

theorem equal_int (w : World) (i j : Int64) : w.equal (.int i) (.int j) = decide (i = j) := by
  have scalar : sameScalar (.int i) (.int j) = decide (i = j) :=
    decide_eq_decide.2 (Value.int.injEq i j).to_iff
  rw [equal]
  cases w.containers with
  | zero => exact scalar
  | succ => exact scalar

theorem equal_comm (w : World) (a b : Value) : w.equal a b = w.equal b a :=
  Bool.eq_iff_iff.2 ⟨equalWithin_of_flip, equalWithin_of_flip⟩

/-! ### Equality in a later world -/

theorem equalWithin_of_eq (fuel : Nat) {a b : Value} (equal : sameScalar a b = true) :
    w.equalWithin fuel a b = true := by
  cases fuel with
  | zero => exact equal
  | succ fuel =>
    cases a with
    | list r =>
      cases b with
      | list s =>
        have same : r = s := by simpa [sameScalar] using equal
        rw [equalWithin, decide_eq_true same, Bool.true_or]
      | _ => exact equal
    | map r =>
      cases b with
      | map s =>
        have same : r = s := by simpa [sameScalar] using equal
        rw [equalWithin, decide_eq_true same, Bool.true_or]
      | _ => exact equal
    | _ => cases b <;> exact equal

/-- What exists and is equal stays so, however deep one looks. -/
theorem equalWithin_mono (grows : w.Extends w') (whole : w.Whole) {n m : Nat} (deeper : n ≤ m)
    (left : w.Known a) (right : w.Known b) (equal : w.equalWithin n a b = true) :
    w'.equalWithin m a b = true := by
  induction n generalizing a b m with
  | zero => exact equalWithin_of_eq m equal
  | succ n ih =>
    obtain ⟨m, rfl⟩ : ∃ k, m = k + 1 := ⟨m - 1, by omega⟩
    replace ih {a b : Value} := @ih a b m (by omega)
    cases a with
    | list r =>
      cases b with
      | list s =>
        obtain ⟨xs, here, items⟩ := known_list left
        obtain ⟨ys, there, items'⟩ := known_list right
        have later {q : ListRef} {zs : List Value} (found : w.lists[q.index]? = some zs) :
            w'.items q = zs := by
          rw [World.items, grows.lists found]
          rfl
        rw [equalWithin, Bool.or_eq_true, items, items'] at equal
        rw [equalWithin, Bool.or_eq_true, later here, later there]
        refine equal.imp_right fun same => ?_
        have flipped : sameItems (fun y x => w'.equalWithin m x y) ys xs = true :=
          sameItems_of_flip (fun x memX y memY =>
            ih (whole.items here x memX) (whole.items there y memY)) same
        exact sameItems_of_flip (fun _ _ _ _ => id) flipped
      | _ => exact equal
    | map r =>
      cases b with
      | map s =>
        obtain ⟨d, here, entries⟩ := known_map left
        obtain ⟨e, there, entries'⟩ := known_map right
        have later {q : MapRef} {f : Dict String Value} (found : w.maps[q.index]? = some f) :
            w'.entries q = f := by
          rw [World.entries, grows.maps found]
          rfl
        rw [equalWithin, Bool.or_eq_true, entries, entries'] at equal
        rw [equalWithin, Bool.or_eq_true, later here, later there]
        refine equal.imp_right fun same => ?_
        have flipped : sameEntries (fun y x => w'.equalWithin m x y) e d = true :=
          sameEntries_of_flip (fun k x y memX memY =>
            ih (whole.entries here memX) (whole.entries there memY)) same
        exact sameEntries_of_flip (fun _ _ _ _ _ => id) flipped
      | _ => exact equal
    | _ => cases b <;> exact equal

/-- Equality looks at containers only. -/
theorem equal_congr (lists : w'.lists = w.lists) (maps : w'.maps = w.maps) (a b : Value) :
    w'.equal a b = w.equal a b := by
  have within (fuel : Nat) (a b : Value) : w'.equalWithin fuel a b = w.equalWithin fuel a b := by
    induction fuel generalizing a b with
    | zero => rfl
    | succ fuel ih =>
      have same : w'.equalWithin fuel = w.equalWithin fuel := funext fun a => funext (ih a)
      cases a with
      | list r =>
        cases b <;> simp only [equalWithin, items, lists, same]
      | map r =>
        cases b <;> simp only [equalWithin, entries, maps, same]
      | _ => rfl
  rw [equal, equal, containers, containers, lists, maps, within]

theorem equal_mono (grows : w.Extends w') (whole : w.Whole) (left : w.Known a) (right : w.Known b)
    (equal : w.equal a b = true) : w'.equal a b = true := by
  have size {α : Type} {xs ys : Array α}
      (kept : ∀ {i : Nat} {x}, xs[i]? = some x → ys[i]? = some x) : xs.size ≤ ys.size := by
    by_contra shorter
    have inside : ys.size < xs.size := Nat.lt_of_not_le shorter
    have there := kept (Array.getElem?_eq_getElem inside)
    rw [Array.getElem?_eq_none (Nat.le_refl _)] at there
    cases there
  exact equalWithin_mono grows whole (Nat.add_le_add (size grows.lists) (size grows.maps))
    left right equal

/-- Identical or equal. -/
def Matches (w : World) (a b : Value) : Prop := a = b ∨ w.equal a b = true

theorem Matches.symm (same : w.Matches a b) : w.Matches b a :=
  same.imp Eq.symm fun equal => (w.equal_comm b a).trans equal

theorem Matches.mono (grows : w.Extends w') (whole : w.Whole) (left : w.Known a)
    (right : w.Known b) (same : w.Matches a b) : w'.Matches a b :=
  same.imp_right (equal_mono grows whole left right)

end LiveBinding.World
