import LiveBinding.Builtin
import LiveBinding.Proofs.Locations
import LiveBinding.Proofs.Structure

/-! Items of shared containers.

Reading and replacing items and asking for the length each look at the container for themselves.
Here it is said once what an index means (`Denotes`), what a read finds (`Reads`) and which place an
assignment goes to (`Locates`), and the three operations are shown to agree on it. The places belong
to the containers and not to the values that refer to them, so what is put in a place is seen from
everywhere. -/
namespace LiveBinding
namespace World
variable {w u : World} {v key x y : Value} {i : Int64} {n p : Nat} {ℓ : Location}

/-! ### Indices -/

/-- The place an index means among so many, counted from the back if the index is negative. -/
structure Denotes (n : Nat) (i : Int64) (p : Nat) : Prop where
  inside : p < n
  place : (p : Int) = if i.toInt < 0 then i.toInt + n else i.toInt

/-- The index means a place. -/
def InRange (n : Nat) (i : Int64) : Prop := -n ≤ i.toInt ∧ i.toInt < n

theorem place?_eq_some_iff : place? i n = some p ↔ Denotes n i p := by
  unfold place?
  dsimp only
  constructor
  · intro found
    obtain ⟨inside, same⟩ := Option.ite_none_right_eq_some.1 found
    cases same
    exact ⟨by omega, by omega⟩
  · rintro ⟨inside, place⟩
    rw [← place, if_pos ⟨Int.natCast_nonneg p, Int.ofNat_lt.2 inside⟩, Int.toNat_natCast]

theorem exists_denotes (range : InRange n i) : ∃ p, Denotes n i p := by
  obtain ⟨low, high⟩ := range
  refine ⟨(if i.toInt < 0 then i.toInt + n else i.toInt).toNat, ?_, ?_⟩
  · split <;> omega
  · split <;> omega

theorem Denotes.range (denotes : Denotes n i p) : InRange n i := by
  obtain ⟨inside, place⟩ := denotes
  unfold InRange
  split at place <;> omega

theorem place?_eq_none (outside : ¬InRange n i) : place? i n = none := by
  by_contra found
  obtain ⟨p, found⟩ := Option.ne_none_iff_exists'.1 found
  exact outside (place?_eq_some_iff.1 found).range

/-! ### Reading -/

/-- How many items a list has, or characters a text. -/
def count? (w : World) : Value → Option Nat
  | .list r => some (w.items r).length
  | .str s => some s.toList.length
  | _ => none

/-- The item or the character in a place. -/
def itemAt? (w : World) : Value → Nat → Option Value
  | .list r, p => (w.items r)[p]?
  | .str s, p => s.toList[p]?.map fun c => .str (String.singleton c)
  | _, _ => none

theorem exists_itemAt? (count : w.count? v = some n) (inside : p < n) :
    ∃ x, w.itemAt? v p = some x := by
  cases v with
  | list r =>
    cases count
    exact ⟨_, List.getElem?_eq_getElem inside⟩
  | str s =>
    cases count
    exact ⟨_, congrArg (Option.map _) (List.getElem?_eq_getElem inside)⟩
  | _ => cases count

theorem getItem_str (w : World) (s : String) (i : Int64) :
    w.getItem (.str s) (.int i) =
      match (place? i s.toList.length).bind fun p => s.toList[p]? with
      | some c => .ok (.str (String.singleton c))
      | none => .error (w.badKey (.str s) (.int i)) := rfl

theorem getItem_entry (w : World) (r : MapRef) (k : String) :
    w.getItem (.map r) (.str k) = match (w.entries r).get? k with
      | some x => .ok x
      | none => .error (w.badKey (.map r) (.str k)) := rfl

theorem getItem_index (count : w.count? v = some n) :
    w.getItem v (.int i) = match (place? i n).bind (w.itemAt? v) with
      | some x => .ok x
      | none => .error (w.badKey v (.int i)) := by
  cases v with
  | list r =>
    cases count
    rfl
  | str s =>
    cases count
    rw [getItem_str]
    cases place? i s.toList.length with
    | none => rfl
    | some p =>
      rw [Option.bind_some, Option.bind_some, itemAt?]
      cases s.toList[p]? <;> rfl
  | _ => cases count

/-- What there is to be read at a key. -/
inductive Reads (w : World) : Value → Value → Value → Prop where
  | index {v x : Value} {n : Nat} {i : Int64} {p : Nat} (count : w.count? v = some n)
      (denotes : Denotes n i p) (item : w.itemAt? v p = some x) : Reads w v (.int i) x
  | entry {r : MapRef} {k : String} {x : Value} (found : (w.entries r).get? k = some x) :
      Reads w (.map r) (.str k) x

theorem reads_entry_iff {r : MapRef} {k : String} :
    w.Reads (.map r) (.str k) x ↔ (w.entries r).get? k = some x := by
  constructor
  · intro reads
    cases reads with
    | entry found => exact found
  · exact .entry

/-- Why there is nothing at a key. -/
def refusal (w : World) (v key : Value) : BindError :=
  match v with
  | .list _ | .str _ | .map _ => w.badKey v key
  | _ => w.notSubscriptable v

theorem getItem_index_of_denotes (count : w.count? v = some n) (denotes : Denotes n i p)
    (item : w.itemAt? v p = some x) : w.getItem v (.int i) = .ok x := by
  rw [getItem_index count, place?_eq_some_iff.2 denotes, Option.bind_some, item]

theorem getItem_eq_ok_iff : w.getItem v key = .ok x ↔ w.Reads v key x := by
  constructor
  · intro ok
    have index {v : Value} {i : Int64} {n : Nat} (count : w.count? v = some n)
        (ok : w.getItem v (.int i) = .ok x) : w.Reads v (.int i) x := by
      rw [getItem_index count] at ok
      split at ok
      · next found =>
        cases ok
        obtain ⟨p, place, item⟩ := Option.bind_eq_some_iff.1 found
        exact .index count (place?_eq_some_iff.1 place) item
      · cases ok
    cases v with
    | list r =>
      cases key with
      | int i => exact index rfl ok
      | _ => cases ok
    | str s =>
      cases key with
      | int i => exact index rfl ok
      | _ => cases ok
    | map r =>
      cases key with
      | str k =>
        rw [getItem_entry] at ok
        split at ok
        · next found =>
          cases ok
          exact .entry found
        · cases ok
      | _ => cases ok
    | _ => cases ok
  · rintro (⟨count, denotes, item⟩ | ⟨found⟩)
    · exact getItem_index_of_denotes count denotes item
    · rw [getItem_entry, found]

theorem eq_refusal {e : BindError} (fails : w.getItem v key = .error e) : e = w.refusal v key := by
  cases v with
  | list r =>
    cases key with
    | int i =>
      rw [getItem_index rfl] at fails
      split at fails <;> cases fails
      rfl
    | _ =>
      cases fails
      rfl
  | str s =>
    cases key with
    | int i =>
      rw [getItem_index rfl] at fails
      split at fails <;> cases fails
      rfl
    | _ =>
      cases fails
      rfl
  | map r =>
    cases key with
    | str k =>
      rw [getItem_entry] at fails
      split at fails <;> cases fails
      rfl
    | _ =>
      cases fails
      rfl
  | _ =>
    cases fails
    rfl

/-! ### Replacing -/

/-- The place in a container that a key means. -/
inductive Locates (w : World) : Value → Value → Location → Prop where
  | item {r : ListRef} {i : Int64} {p : Nat} (denotes : Denotes (w.items r).length i p) :
      Locates w (.list r) (.int i) (.item r p)
  | entry {r : MapRef} {k : String} : Locates w (.map r) (.str k) (.entry r k)

theorem setItem_index (w : World) (r : ListRef) (i : Int64) (x : Value) :
    w.setItem (.list r) (.int i) x = match place? i (w.items r).length with
      | some p => .ok (w.modifyList r fun items => items.set p x)
      | none => .error (w.badKey (.list r) (.int i)) := rfl

theorem setItem_of_denotes {r : ListRef} (denotes : Denotes (w.items r).length i p) (x : Value) :
    ∃ u, w.setItem (.list r) (.int i) x = .ok u ∧ w.Updates (.item r p) x u := by
  refine ⟨_, ?_, updates_item denotes.inside⟩
  rw [setItem_index, place?_eq_some_iff.2 denotes]

theorem setItem_outside {r : ListRef} (outside : ¬InRange (w.items r).length i) (x : Value) :
    w.setItem (.list r) (.int i) x = .error (w.badKey (.list r) (.int i)) := by
  rw [setItem_index, place?_eq_none outside]

theorem setItem_entry {r : MapRef} (known : w.Known (.map r)) (k : String) (x : Value) :
    ∃ u, w.setItem (.map r) (.str k) x = .ok u ∧ w.Updates (.entry r k) x u :=
  ⟨_, rfl, updates_entry known⟩

/-- What has been replaced is in the place that the key means. -/
theorem updates_of_setItem (known : w.Known v) (ok : w.setItem v key x = .ok u) :
    ∃ ℓ, w.Locates v key ℓ ∧ w.Updates ℓ x u := by
  cases v with
  | list r =>
    cases key with
    | int i =>
      by_cases range : InRange (w.items r).length i
      · obtain ⟨p, denotes⟩ := exists_denotes range
        obtain ⟨u', ok', updates⟩ := setItem_of_denotes denotes x
        cases ok.symm.trans ok'
        exact ⟨_, .item denotes, updates⟩
      · rw [setItem_outside range] at ok
        cases ok
    | _ => cases ok
  | map r =>
    cases key with
    | str k =>
      obtain ⟨u', ok', updates⟩ := setItem_entry known k x
      cases ok.symm.trans ok'
      exact ⟨_, .entry, updates⟩
    | _ => cases ok
  | _ => cases ok

/-! ### Reading after replacing -/

theorem Reads.of_locates (located : w.Locates v key ℓ) (here : w.content ℓ = some x) :
    w.Reads v key x := by
  cases located with
  | item denotes => exact .index rfl denotes here
  | entry => exact .entry here

/-- A read looks at the lengths of lists and at the place that the key means. -/
theorem Reads.congr (lengths : ∀ r, (u.items r).length = (w.items r).length)
    (same : ∀ ℓ, w.Locates v key ℓ → u.content ℓ = w.content ℓ) (reads : w.Reads v key y) :
    u.Reads v key y := by
  cases reads with
  | @index v y n i p count denotes item =>
    cases v with
    | list r =>
      cases count
      refine .index (congrArg some (lengths r)) denotes ?_
      exact (same _ (.item denotes)).trans item
    | str s => exact .index count denotes item
    | _ => cases count
  | entry found => exact .entry ((same _ .entry).trans found)

namespace Updates
variable (updates : w.Updates ℓ x u)
include updates

theorem locates_iff {ℓ' : Location} : u.Locates v key ℓ' ↔ w.Locates v key ℓ' := by
  constructor
  · rintro (⟨denotes⟩ | ⟨⟩)
    · rw [updates.lengths] at denotes
      exact .item denotes
    · exact .entry
  · rintro (⟨denotes⟩ | ⟨⟩)
    · rw [← updates.lengths] at denotes
      exact .item denotes
    · exact .entry

theorem getItem_here (located : w.Locates v key ℓ) : u.getItem v key = .ok x :=
  getItem_eq_ok_iff.2 (.of_locates (updates.locates_iff.2 located) updates.here)

theorem reads_iff (elsewhere : ¬w.Locates v key ℓ) : u.Reads v key y ↔ w.Reads v key y := by
  have same {ℓ' : Location} (located : w.Locates v key ℓ') : u.content ℓ' = w.content ℓ' :=
    updates.others ℓ' fun here => elsewhere (here ▸ located)
  constructor
  · exact Reads.congr (fun r => (updates.lengths r).symm) fun ℓ' located =>
      (same (updates.locates_iff.1 located)).symm
  · exact Reads.congr updates.lengths fun ℓ' located => same located

theorem typeNameOf_eq : u.typeNameOf v = w.typeNameOf v := by
  rw [updates.rest]
  cases v <;> rfl

theorem text_eq (atom : key.isContainer = false) : u.text key = w.text key := by
  rw [text_eq_scalarText u atom, text_eq_scalarText w atom, updates.rest]
  cases key <;> rfl

theorem refusal_eq (text : u.text key = w.text key) : u.refusal v key = w.refusal v key := by
  cases v <;> simp only [refusal, badKey, notSubscriptable, updates.typeNameOf_eq, text]

/-- Any other read finds what it found before. A key that is refused is named by its text, and that
is another only if the key is a container and something else is in it by then. -/
theorem getItem_elsewhere (elsewhere : ¬w.Locates v key ℓ) :
    (u.getItem v key).toOption = (w.getItem v key).toOption ∧
      (key.isContainer = false ∨ u.text key = w.text key →
        u.getItem v key = w.getItem v key) := by
  have found (y : Value) : u.getItem v key = .ok y ↔ w.getItem v key = .ok y := by
    rw [getItem_eq_ok_iff, getItem_eq_ok_iff]
    exact updates.reads_iff elsewhere
  cases before : w.getItem v key with
  | ok y =>
    rw [(found y).2 before]
    exact ⟨rfl, fun _ => rfl⟩
  | error e =>
    cases after : u.getItem v key with
    | ok y => cases ((found y).1 after).symm.trans before
    | error e' =>
      refine ⟨rfl, fun named => ?_⟩
      have text : u.text key = w.text key := named.elim updates.text_eq id
      rw [eq_refusal before, eq_refusal after, updates.refusal_eq text]

end Updates

end World

/-! ### Lengths -/

theorem Builtin.call_len {w : World} {f : NativeRef} {v : Value} {m : Nat}
    (known : w.natives[f.index]? = some ⟨"len", [], length⟩) (count : w.count? v = some m)
    (n : Nat) :
    perform (n + 2) Value (.call (.native f) [v]) w = some (.ok (.int (.ofNat m)), w) := by
  refine perform_native_of_run known fun held => ?_
  cases v with
  | list r =>
    cases count
    rfl
  | str s =>
    cases count
    rfl
  | _ => cases count

open World in
/-- **Containers are shared places.** Reads change nothing, and neither does an assignment that
fails. `len` is the number of places that indices mean: an index from the length below zero up to
the length is read, from the back if it is negative, and any other is a bad key. In a list the same
indices can be replaced, in a map any text, and a map is read at the keys it has. Replacing changes
the one place that the key means. Whoever reads this place by then, through whichever value and by
whichever key, finds what has been put there, and every other read answers as before. A read that is
refused tells the text of the key: that of a container goes by what is in it by then. -/
theorem containers_share_updates {w : World} {f : NativeRef}
    (known : w.natives[f.index]? = some ⟨"len", [], Builtin.length⟩) (n : Nat) :
    (∀ v key, perform (n + 1) Value (.getItem v key) w = some (w.getItem v key, w)) ∧
    (∀ v key x, (∀ u, w.setItem v key x = .ok u →
        perform (n + 1) Unit (.setItem v key x) w = some (.ok (), u)) ∧
      ∀ e, w.setItem v key x = .error e →
        perform (n + 1) Unit (.setItem v key x) w = some (.error e, w)) ∧
    (∀ v m, w.count? v = some m →
      (∃ i : Int64, perform (n + 2) Value (.call (.native f) [v]) w = some (.ok (.int i), w) ∧
        (m < 2 ^ 63 → i.toInt = m)) ∧
      ∀ i : Int64,
        (InRange m i → ∃ p x, Denotes m i p ∧ w.itemAt? v p = some x ∧
          w.getItem v (.int i) = .ok x) ∧
        (¬InRange m i → w.getItem v (.int i) = .error (w.badKey v (.int i)))) ∧
    (∀ (r : ListRef) (i : Int64) x,
      (InRange (w.items r).length i → ∃ p u, Denotes (w.items r).length i p ∧
        w.setItem (.list r) (.int i) x = .ok u ∧ w.Updates (.item r p) x u) ∧
      (¬InRange (w.items r).length i →
        w.setItem (.list r) (.int i) x = .error (w.badKey (.list r) (.int i)))) ∧
    (∀ (r : MapRef) (k : String), w.Known (.map r) →
      (∀ x, ∃ u, w.setItem (.map r) (.str k) x = .ok u ∧ w.Updates (.entry r k) x u) ∧
      (∀ x, w.getItem (.map r) (.str k) = .ok x ↔ (w.entries r).get? k = some x) ∧
      ((w.entries r).contains k = false →
        w.getItem (.map r) (.str k) = .error (w.badKey (.map r) (.str k)))) ∧
    ∀ v key x u, w.Known v → w.setItem v key x = .ok u →
      ∃ ℓ, w.Locates v key ℓ ∧ w.Updates ℓ x u ∧ ∀ v' key',
        (w.Locates v' key' ℓ → u.getItem v' key' = .ok x) ∧
        (¬w.Locates v' key' ℓ → (u.getItem v' key').toOption = (w.getItem v' key').toOption ∧
          (key'.isContainer = false ∨ u.text key' = w.text key' →
            u.getItem v' key' = w.getItem v' key')) := by
  refine ⟨fun _ _ => rfl, fun v key x => ⟨fun u ok => ?_, fun e fails => ?_⟩,
    fun v m count => ⟨?_, fun i => ⟨?_, ?_⟩⟩,
    fun r i x => ⟨?_, fun outside => setItem_outside outside x⟩,
    fun r k there => ⟨setItem_entry there k, fun x => ?_, fun none => ?_⟩, ?_⟩
  · show LiveBinding.setItem v key x w = _
    rw [LiveBinding.setItem, ok]
  · show LiveBinding.setItem v key x w = _
    rw [LiveBinding.setItem, fails]
  · exact ⟨_, Builtin.call_len known count n, fun small => Int64.toInt_ofNat_of_lt small⟩
  · intro range
    obtain ⟨p, denotes⟩ := exists_denotes range
    obtain ⟨x, item⟩ := exists_itemAt? count denotes.inside
    exact ⟨p, x, denotes, item, getItem_index_of_denotes count denotes item⟩
  · intro outside
    rw [getItem_index count, place?_eq_none outside]
    rfl
  · intro range
    obtain ⟨p, denotes⟩ := exists_denotes range
    obtain ⟨u, ok, updates⟩ := setItem_of_denotes denotes x
    exact ⟨p, u, denotes, ok, updates⟩
  · rw [getItem_eq_ok_iff, reads_entry_iff]
  · have nothing : (w.entries r).get? k = .none := by simpa [Dict.contains] using none
    rw [getItem_entry, nothing]
  · intro v key x u there ok
    obtain ⟨ℓ, located, updates⟩ := updates_of_setItem there ok
    exact ⟨ℓ, located, updates, fun v' key' => ⟨updates.getItem_here, updates.getItem_elsewhere⟩⟩

namespace abacus
open World

/-- A row of beads that a table has twice and a map once, and another row with the same beads. -/
def world : World :=
  { Builtin.world with
    lists := #[[.int 1, .int 2, .int 3], [.list ⟨0⟩, .list ⟨0⟩], [.int 1, .int 2, .int 3]]
    maps := #[.ofList [("top", .list ⟨0⟩)]] }

def len : NativeRef := ⟨3⟩

/-- The last bead of the row is replaced and read again by its index from the front. The other row
stays as it was, and so does the table. An index out of range replaces nothing. -/
theorem moves_bead :
    ∃ u, perform 2 Unit (.setItem (.list ⟨0⟩) (.int (-1)) (.int 7)) world = some (.ok (), u) ∧
      u.getItem (.list ⟨0⟩) (.int 2) = .ok (.int 7) ∧
      u.getItem (.list ⟨2⟩) (.int 2) = .ok (.int 3) ∧
      u.getItem (.list ⟨1⟩) (.int (-2)) = .ok (.list ⟨0⟩) ∧
      u.getItem (.map ⟨0⟩) (.str "top") = .ok (.list ⟨0⟩) ∧
      perform 2 Unit (.setItem (.list ⟨0⟩) (.int (-4)) (.int 7)) world =
        some (.error (.access (.badKey "list" "-4")), world) ∧
      world.getItem (.str "αβγ") (.int Int64.minValue) =
        .error (.access (.badKey "str" "-9223372036854775808")) ∧
      world.getItem (.map ⟨0⟩) (.str "low") = .error (.access (.badKey "dict" "\"low\"")) := by
  obtain ⟨_, writes, reads, replaces, maps, shared⟩ :=
    containers_share_updates (w := world) (f := len) rfl 1
  obtain ⟨_, u, _, ok, _⟩ := (replaces ⟨0⟩ (-1) (.int 7)).1 ⟨by decide, by decide⟩
  obtain ⟨ℓ, located, _, after⟩ := shared (.list ⟨0⟩) (.int (-1)) (.int 7) u (Nat.succ_pos 2) ok
  obtain rfl : ℓ = .item ⟨0⟩ 2 := by
    cases located with
    | @item _ _ p denotes =>
      obtain rfl : p = 2 := Int.ofNat_inj.1 denotes.place
      rfl
  have elsewhere {v key : Value} (apart : ¬world.Locates v key (.item ⟨0⟩ 2))
      (atom : key.isContainer = false) : u.getItem v key = world.getItem v key :=
    ((after v key).2 apart).2 (.inl atom)
  refine ⟨u, ?_, (after _ _).1 (.item ⟨by decide, by decide⟩), elsewhere nofun rfl,
    elsewhere nofun rfl, elsewhere nofun rfl, ?_, ?_, ?_⟩
  · exact (writes _ _ _).1 u ok
  · have outside := (replaces ⟨0⟩ (-4) (.int 7)).2 fun range => absurd range.1 (by decide)
    have key : world.badKey (.list ⟨0⟩) (.int (-4)) = .access (.badKey "list" "-4") := by
      decide +kernel
    exact (writes _ _ _).2 _ (outside.trans (congrArg Except.error key))
  · have outside := ((reads (.str "αβγ") 3 rfl).2 Int64.minValue).2
    have key : world.badKey (.str "αβγ") (.int Int64.minValue) =
        .access (.badKey "str" "-9223372036854775808") := by
      decide +kernel
    exact (outside fun range => absurd range.1 (by decide)).trans (congrArg Except.error key)
  · have missing := (maps ⟨0⟩ "low" (Nat.succ_pos 0)).2.2 rfl
    have key : world.badKey (.map ⟨0⟩) (.str "low") = .access (.badKey "dict" "\"low\"") := by
      decide +kernel
    exact missing.trans (congrArg Except.error key)

end abacus

end LiveBinding
