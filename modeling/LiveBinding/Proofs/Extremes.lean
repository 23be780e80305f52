import LiveBinding.Proofs.Containment
import LiveBinding.Proofs.Numbers

/-! The least and the greatest of integers.

`min` and `max` go through their items once and keep the first that no other has beaten so far.
Items are compared as floating-point numbers, so an integer beats another only if the two are read
differently; whatever is passed over is as large as what is kept, or is read as the same number. -/
namespace LiveBinding
open Binary64

/-! ### The first of the highest rank -/

/-- An item of the highest rank, and the first one of that rank. -/
def Foremost {α : Type} (rank : α → Int) (xs : List α) (m : α) : Prop :=
  ∃ before after, xs = before ++ m :: after ∧ (∀ x ∈ before, rank x < rank m) ∧
    ∀ x ∈ after, rank x ≤ rank m

namespace Foremost
variable {α : Type} {rank : α → Int} {xs : List α} {m x y : α}

theorem mem (foremost : Foremost rank xs m) : m ∈ xs := by
  obtain ⟨before, after, rfl, _⟩ := foremost
  exact List.mem_append_right _ (List.mem_cons_self ..)

theorem le (foremost : Foremost rank xs m) (here : x ∈ xs) : rank x ≤ rank m := by
  obtain ⟨before, after, rfl, less, most⟩ := foremost
  rcases List.mem_append.1 here with early | late
  · exact Int.le_of_lt (less x early)
  · rcases List.mem_cons.1 late with rfl | late
    · exact Int.le_refl _
    · exact most x late

/-- Something beaten may stand in front. -/
theorem cons (foremost : Foremost rank xs m) (less : rank x < rank m) :
    Foremost rank (x :: xs) m := by
  obtain ⟨before, after, rfl, early, late⟩ := foremost
  exact ⟨x :: before, after, rfl, List.forall_mem_cons.2 ⟨less, early⟩, late⟩

/-- Something that does not beat the first item may come right after it. -/
theorem insert (foremost : Foremost rank (y :: xs) m) (most : rank x ≤ rank y) :
    Foremost rank (y :: x :: xs) m := by
  obtain ⟨before, after, parts, early, late⟩ := foremost
  cases before with
  | nil =>
    cases parts
    exact ⟨[], x :: xs, rfl, early, List.forall_mem_cons.2 ⟨most, late⟩⟩
  | cons z before =>
    cases parts
    obtain ⟨first, rest⟩ := List.forall_mem_cons.1 early
    exact ⟨y :: x :: before, after, rfl,
      List.forall_mem_cons.2 ⟨first, List.forall_mem_cons.2 ⟨Int.lt_of_le_of_lt most first, rest⟩⟩,
      late⟩

end Foremost

namespace Builtin
variable {name : String} {better : Binary64 → Binary64 → Bool} {rank : Int64 → Int}
  {self : Performer} {w : World} {r : ListRef}

/-! ### Going through integers -/

/-- Of integers, `best` gives the foremost. -/
theorem exists_best (name : String)
    (ranks : ∀ i j, better (ofInt64 i) (ofInt64 j) = decide (rank j < rank i))
    (rest : List Int64) (first : Int64) : ∃ m, Foremost rank (first :: rest) m ∧
      best name better (some (ofInt64 first, .int first)) (rest.map .int) =
        pure (some (ofInt64 m, .int m)) := by
  induction rest generalizing first with
  | nil => exact ⟨first, ⟨[], [], rfl, nofun, nofun⟩, rfl⟩
  | cons next rest ih =>
    by_cases beaten : rank first < rank next
    · obtain ⟨m, foremost, result⟩ := ih next
      have less : rank first < rank m :=
        Int.lt_of_lt_of_le beaten (foremost.le (List.mem_cons_self ..))
      refine ⟨m, foremost.cons less, ?_⟩
      rw [← result]
      simp only [List.map_cons, best, Value.asFloat, ranks, decide_eq_true beaten, if_true]
    · obtain ⟨m, foremost, result⟩ := ih first
      refine ⟨m, foremost.insert (Int.not_lt.1 beaten), ?_⟩
      rw [← result]
      simp only [List.map_cons, best, Value.asFloat, ranks, decide_eq_false beaten,
        Bool.false_eq_true, if_false]

/-- What is done with the items, however they are given. -/
def choose (name : String) (better : Binary64 → Binary64 → Bool) (items : List Value) :
    Program Value := do
  match ← best name better none items with
  | some (_, v) => return v
  | none => refuse s!"{name}() arg is an empty sequence"

/-- The items are given one by one, or as one list. -/
def Given (w : World) (items args : List Value) : Prop :=
  args = items ∨ ∃ r, args = [.list r] ∧ w.items r = items

theorem extreme_list : extreme name better [.list r] =
    Program.query (.items r) >>= choose name better := rfl

theorem extreme_ints (ints : List Int64) :
    extreme name better (ints.map .int) = choose name better (ints.map .int) := by
  match ints with
  | [] => rfl
  | [_] => rfl
  | _ :: _ :: _ => rfl

theorem run_extreme {ints : List Int64} {args : List Value} (n : Nat)
    (given : Given w (ints.map .int) args) :
    (extreme name better args).run (perform (n + 1)) w =
      (choose name better (ints.map .int)).run (perform (n + 1)) w := by
  rcases given with rfl | ⟨r, rfl, held⟩
  · rw [extreme_ints]
  · rw [extreme_list, ← held]
    rfl

theorem exists_choose (name : String)
    (ranks : ∀ i j, better (ofInt64 i) (ofInt64 j) = decide (rank j < rank i))
    {ints : List Int64} (nonempty : ints ≠ []) :
    ∃ m, Foremost rank ints m ∧ choose name better (ints.map .int) = pure (.int m) := by
  obtain ⟨first, rest, rfl⟩ := List.exists_cons_of_ne_nil nonempty
  obtain ⟨m, foremost, result⟩ := exists_best name ranks rest first
  refine ⟨m, foremost, ?_⟩
  have start : best name better none ((first :: rest).map .int) = pure (some (ofInt64 m, .int m)) :=
    result
  unfold choose
  rw [start]
  rfl

/-! ### Calls -/

theorem call_extreme {f : NativeRef} {captured : List Value} {ints : List Int64}
    (known : w.natives[f.index]? = some ⟨name, captured, extreme name better⟩)
    (ranks : ∀ i j, better (ofInt64 i) (ofInt64 j) = decide (rank j < rank i))
    (nonempty : ints ≠ []) {args : List Value} (n : Nat) (given : Given w (ints.map .int) args) :
    ∃ m, Foremost rank ints m ∧
      perform (n + 2) Value (.call (.native f) args) w = some (.ok (.int m), w) := by
  obtain ⟨m, foremost, chosen⟩ := exists_choose name ranks nonempty
  refine ⟨m, foremost, perform_native_of_run known fun held => ?_⟩
  exact (run_extreme (w := {w with held := held}) n given).trans (by rw [chosen]; rfl)

theorem less_ofInt64 (i j : Int64) : (ofInt64 i).less (ofInt64 j) =
    decide ((ofInt64 i).units < (ofInt64 j).units) := by
  have number (i : Int64) : (ofInt64 i).isNaN = false :=
    isNaN_of_isFinite (nearest_ofInt (natAbs_toInt_le i)).finite
  rw [less, number, number]
  rfl

/-- What is passed over is as large as what is kept, or is read as the same number. -/
theorem le_or_equal {i j : Int64} (most : (ofInt64 i).units ≤ (ofInt64 j).units) :
    i ≤ j ∨ ((ofInt64 i).equal (ofInt64 j) = true ∧ i.toInt - j.toInt ≤ 1024) := by
  have small := natAbs_toInt_le
  by_cases ordered : i ≤ j
  · exact .inl ordered
  · have above : j.toInt ≤ i.toInt := by
      rw [Int64.le_iff_toInt_le] at ordered
      omega
    have same : (ofInt64 i).units = (ofInt64 j).units :=
      Int.le_antisymm most (units_ofInt_mono above (small j) (small i))
    have nearest := nearest_ofInt (small i)
    have nearest' := nearest_ofInt (small j)
    refine .inr ⟨equal_iff.2 ⟨isNaN_of_isFinite nearest.finite, ?_, same⟩, ?_⟩
    · exact isNaN_of_isFinite nearest'.finite
    -- each is 512 at most from what both are read as
    have off := gap_ofInt_le (small i)
    have off' := gap_ofInt_le (small j)
    unfold gap at off off'
    unfold ofInt64 at same
    rw [← same] at off'
    have apart : (i.toInt - j.toInt) * unitsOfOne ≤ 1024 * (unitsOfOne : Int) := by
      rw [Int.sub_mul]
      omega
    exact Int.le_of_mul_le_mul_right apart (Int.natCast_pos.2 unitsOfOne_pos)

/-- Integers of fifty-three bits are compared exactly. -/
theorem le_of_units_le {i j : Int64} (short : i.toInt.natAbs ≤ 2 ^ 53)
    (short' : j.toInt.natAbs ≤ 2 ^ 53)
    (most : (ofInt64 i).units ≤ (ofInt64 j).units) : i ≤ j := by
  unfold ofInt64 at most
  rw [units_ofInt short, units_ofInt short'] at most
  exact Int64.le_iff_toInt_le.2
    (Int.le_of_mul_le_mul_right most (Int.natCast_pos.2 unitsOfOne_pos))

end Builtin

open Builtin in
/-- **The least and the greatest of integers, as far as rounding allows.** Of integers given one by
one or as one list, `max` gives the first that is read as the greatest number, and `min` the first
that is read as the least; nothing else happens. So an integer that is greater than what `max`
gives, or less than what `min` gives, is read as the same floating-point number and differs by 1024
at most. Among integers of fifty-three bits there is none. -/
theorem extremes_by_rounding {w : World} {f : NativeRef} {ints : List Int64} {args : List Value}
    (nonempty : ints ≠ []) (given : Given w (ints.map .int) args) (n : Nat) :
    (w.natives[f.index]? = some ⟨"max", [], maximum⟩ →
      ∃ m, perform (n + 2) Value (.call (.native f) args) w = some (.ok (.int m), w) ∧
        Foremost (fun i => (ofInt64 i).units) ints m ∧
        (∀ x ∈ ints, x ≤ m ∨
          ((ofInt64 x).equal (ofInt64 m) = true ∧ x.toInt - m.toInt ≤ 1024)) ∧
        ((∀ x ∈ ints, x.toInt.natAbs ≤ 2 ^ 53) → ∀ x ∈ ints, x ≤ m)) ∧
    (w.natives[f.index]? = some ⟨"min", [], minimum⟩ →
      ∃ m, perform (n + 2) Value (.call (.native f) args) w = some (.ok (.int m), w) ∧
        Foremost (fun i => -(ofInt64 i).units) ints m ∧
        (∀ x ∈ ints, m ≤ x ∨
          ((ofInt64 m).equal (ofInt64 x) = true ∧ m.toInt - x.toInt ≤ 1024)) ∧
        ((∀ x ∈ ints, x.toInt.natAbs ≤ 2 ^ 53) → ∀ x ∈ ints, m ≤ x)) := by
  constructor
  · intro known
    obtain ⟨m, foremost, run⟩ := call_extreme known (fun i j => less_ofInt64 j i) nonempty n given
    exact ⟨m, run, foremost, fun x here => le_or_equal (foremost.le here), fun short x here =>
      le_of_units_le (short x here) (short m foremost.mem) (foremost.le here)⟩
  · intro known
    have ranks (i j : Int64) : (ofInt64 i).less (ofInt64 j) =
        decide (-(ofInt64 j).units < -(ofInt64 i).units) :=
      (less_ofInt64 i j).trans (decide_eq_decide.2 Int.neg_lt_neg_iff.symm)
    obtain ⟨m, foremost, run⟩ := call_extreme known ranks nonempty n given
    have least {x : Int64} (here : x ∈ ints) : (ofInt64 m).units ≤ (ofInt64 x).units :=
      Int.neg_le_neg_iff.1 (foremost.le here)
    exact ⟨m, run, foremost, fun x here => le_or_equal (least here), fun short x here =>
      le_of_units_le (short m foremost.mem) (short x here) (least here)⟩

namespace odometer

/-- The references of `min` and `max`. -/
def least : NativeRef := ⟨9⟩

def greatest : NativeRef := ⟨10⟩

theorem natives : Builtin.world.natives[least.index]? = some ⟨"min", [], Builtin.minimum⟩ ∧
    Builtin.world.natives[greatest.index]? = some ⟨"max", [], Builtin.maximum⟩ := ⟨rfl, rfl⟩

/-- Of three small integers the extremes are right. -/
theorem finds_extremes : ∃ m k : Int64,
    perform 2 Value (.call (.native greatest) [.int 3, .int 9, .int (-4)]) Builtin.world =
      some (.ok (.int m), Builtin.world) ∧ (3 ≤ m ∧ 9 ≤ m ∧ -4 ≤ m) ∧
    perform 2 Value (.call (.native least) [.int 3, .int 9, .int (-4)]) Builtin.world =
      some (.ok (.int k), Builtin.world) ∧ k ≤ 3 ∧ k ≤ 9 ∧ k ≤ -4 := by
  have given : Builtin.Given Builtin.world ([3, 9, -4].map .int) [.int 3, .int 9, .int (-4)] :=
    .inl rfl
  have short : ∀ x ∈ ([3, 9, -4] : List Int64), x.toInt.natAbs ≤ 2 ^ 53 := by simp
  obtain ⟨m, run, _, _, most⟩ := (extremes_by_rounding (by decide) given 0).1 natives.2
  obtain ⟨k, run', _, _, fewest⟩ := (extremes_by_rounding (by decide) given 0).2 natives.1
  exact ⟨m, k, run,
    ⟨most short 3 (by decide), most short 9 (by decide), most short (-4) (by decide)⟩, run',
    fewest short 3 (by decide), fewest short 9 (by decide), fewest short (-4) (by decide)⟩

/-- Two to the fifty-third comes before the integer that follows it, and is taken for the
greatest. -/
theorem takes_first : full < next ∧
    (perform 2 Value (.call (.native greatest) [.int full, .int next]) Builtin.world).map
      (fun x => x.1.toOption) = some (some (.int full)) ∧
    (perform 2 Value (.call (.native least) [.int next, .int full]) Builtin.world).map
      (fun x => x.1.toOption) = some (some (.int next)) := by
  decide +kernel

end odometer

end LiveBinding
