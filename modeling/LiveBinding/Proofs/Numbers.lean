import LiveBinding.Proofs.Rounding
import LiveBinding.Proofs.Runs

/-! Equality of numbers.

An integer is compared to a floating-point number by what it is read as, so the two are equal if
the floating-point number is nearest to the integer. Up to fifty-three bits that is the same as
being the same number; beyond that two integers that differ may equal one floating-point number.
An assignment that replaces a number by an equal one is left out. -/
namespace LiveBinding
open Binary64

/-! ### Which number a value is -/

/-- The number that a value is, in units. A NaN is none, and the infinities stand beyond all that is
finite. -/
def Value.units? : Value → Option Int
  | .int i => some (i.toInt * unitsOfOne)
  | .float x => if x.isNaN then none else some x.units
  | _ => none

/-- The first value is an integer and the second the floating-point number nearest to it. -/
def Value.RoundsTo (a b : Value) : Prop :=
  ∃ i x, a = .int i ∧ b = .float x ∧ Nearest i.toInt x

/-- Integers of fifty-three bits, and floating-point numbers. -/
def Value.Short (a : Value) : Prop := ∀ i, a = .int i → i.toInt.natAbs ≤ 2 ^ 53

theorem Value.units?_float {x : Binary64} {u : Int} :
    (Value.float x).units? = some u ↔ x.isNaN = false ∧ x.units = u := by
  cases nan : x.isNaN <;> simp [units?, nan]

theorem natAbs_toInt_le (i : Int64) : i.toInt.natAbs ≤ 2 ^ 63 := by
  have := i.le_toInt
  have := i.toInt_lt
  omega

namespace World
variable {w w' : World} {a b c : Value} {u v : Int} {i j : Int64} {x y : Binary64}

/-! ### Equality -/

theorem equal_scalar (number : a.units?.isSome = true) : w.equal a b = sameScalar a b := by
  rw [equal]
  cases w.containers with
  | zero => rfl
  | succ fuel =>
    cases a with
    | int i => cases b <;> rfl
    | float x => cases b <;> rfl
    | _ => cases number

theorem equal_int_float : w.equal (.int i) (.float x) = (ofInt64 i).equal x := equal_scalar rfl

theorem equal_int_float_iff : w.equal (.int i) (.float x) = true ↔ Nearest i.toInt x := by
  rw [equal_int_float, ofInt64]
  exact ofInt_equal_iff (natAbs_toInt_le i)

theorem equal_float_int_iff : w.equal (.float x) (.int i) = true ↔ Nearest i.toInt x := by
  rw [equal_comm]
  exact equal_int_float_iff

theorem equal_float_iff : w.equal (.float x) (.float y) = true ↔
    x.isNaN = false ∧ y.isNaN = false ∧ x.units = y.units := by
  have scalar : w.equal (.float x) (.float y) = x.equal y := by
    rw [equal]
    cases w.containers <;> rfl
  rw [scalar]
  exact equal_iff

theorem roundsTo_iff : (Value.int i).RoundsTo (.float x) ↔ Nearest i.toInt x :=
  ⟨fun ⟨_, _, int, float, nearest⟩ => by cases int; cases float; exact nearest,
    fun nearest => ⟨i, x, rfl, rfl, nearest⟩⟩

/-- **Numbers are equal if they are the same number, or one is an integer and the other nearest to
it.** -/
theorem equal_numbers_iff (left : a.units? = some u) (right : b.units? = some v) :
    w.equal a b = true ↔ u = v ∨ a.RoundsTo b ∨ b.RoundsTo a := by
  have mixed {i : Int64} {x : Binary64} {n : Int} (number : (Value.float x).units? = some n)
      (same : n = i.toInt * unitsOfOne) : Nearest i.toInt x :=
    nearest_of_units_eq (natAbs_toInt_le i) ((Value.units?_float.1 number).2.trans same)
  cases a with
  | int i =>
    cases left
    cases b with
    | int j =>
      cases right
      have never {i j : Int64} : ¬(Value.int i).RoundsTo (.int j) :=
        fun ⟨_, _, _, no, _⟩ => nomatch no
      rw [equal_int, decide_eq_true_eq, or_iff_left (not_or_intro never never), ← Int64.toInt_inj]
      exact ⟨fun same => by rw [same],
        Int.eq_of_mul_eq_mul_right (Int.ne_of_gt (Int.natCast_pos.2 unitsOfOne_pos))⟩
    | float x =>
      have never : ¬(Value.float x).RoundsTo (.int i) := fun ⟨_, _, no, _⟩ => nomatch no
      rw [equal_int_float_iff, or_iff_left never, roundsTo_iff]
      exact ⟨.inr, fun either => either.elim (fun same => mixed right same.symm) id⟩
    | _ => cases right
  | float x =>
    cases b with
    | int i =>
      cases right
      have never : ¬(Value.float x).RoundsTo (.int i) := fun ⟨_, _, no, _⟩ => nomatch no
      rw [equal_float_int_iff, or_iff_right never, roundsTo_iff]
      exact ⟨.inr, fun either => either.elim (mixed left) id⟩
    | float y =>
      have never {x y : Binary64} : ¬(Value.float x).RoundsTo (.float y) :=
        fun ⟨_, _, no, _⟩ => nomatch no
      obtain ⟨some, rfl⟩ := Value.units?_float.1 left
      obtain ⟨some', rfl⟩ := Value.units?_float.1 right
      rw [equal_float_iff, or_iff_left (not_or_intro never never)]
      exact ⟨fun equal => equal.2.2, fun same => ⟨some, some', same⟩⟩
    | _ => cases right
  | _ => cases left

/-- Equal numbers are no more than 512 apart. -/
theorem natAbs_sub_le_of_equal (left : a.units? = some u) (right : b.units? = some v)
    (equal : w.equal a b = true) : (u - v).natAbs ≤ 512 * unitsOfOne := by
  have near {a b : Value} {u v : Int} (left : a.units? = some u) (right : b.units? = some v)
      (rounds : a.RoundsTo b) : (v - u).natAbs ≤ 512 * unitsOfOne := by
    obtain ⟨i, x, rfl, rfl, nearest⟩ := rounds
    cases left
    obtain ⟨_, rfl⟩ := Value.units?_float.1 right
    have read := nearest_ofInt (natAbs_toInt_le i)
    exact Nat.le_trans (nearest.least _ read.finite) (gap_ofInt_le (natAbs_toInt_le i))
  rcases (equal_numbers_iff left right).1 equal with rfl | rounds | rounds
  · rw [Int.sub_self]
    exact Nat.zero_le _
  · rw [← Int.natAbs_neg, Int.neg_sub]
    exact near left right rounds
  · exact near right left rounds

/-- What a short integer rounds to is the integer itself. -/
theorem eq_of_roundsTo (short : a.Short) (left : a.units? = some u) (right : b.units? = some v)
    (rounds : a.RoundsTo b) : u = v := by
  obtain ⟨i, x, rfl, rfl, nearest⟩ := rounds
  cases left
  obtain ⟨_, rfl⟩ := Value.units?_float.1 right
  rw [nearest.units_eq (natAbs_toInt_le i), units_ofInt (short i rfl)]

/-- Short numbers are equal if they are the same number. -/
theorem equal_short_iff (short : a.Short) (short' : b.Short) (left : a.units? = some u)
    (right : b.units? = some v) : w.equal a b = true ↔ u = v := by
  rw [equal_numbers_iff left right]
  refine ⟨fun either => ?_, .inl⟩
  rcases either with same | rounds | rounds
  · exact same
  · exact eq_of_roundsTo short left right rounds
  · exact (eq_of_roundsTo short' right left rounds).symm

/-- Equality is transitive, except that a floating-point number may be nearest to two integers. -/
theorem equal_trans (left : a.units?.isSome = true) (middle : b.units?.isSome = true)
    (right : c.units?.isSome = true) (first : w.equal a b = true) (next : w.equal b c = true) :
    w.equal a c = true ∨ ∃ i j x, a = .int i ∧ b = .float x ∧ c = .int j ∧ i ≠ j ∧
      Nearest i.toInt x ∧ Nearest j.toInt x := by
  obtain ⟨u, left⟩ := Option.isSome_iff_exists.1 left
  obtain ⟨n, middle⟩ := Option.isSome_iff_exists.1 middle
  obtain ⟨v, right⟩ := Option.isSome_iff_exists.1 right
  cases b with
  | int k =>
    -- an integer equals only itself and the numbers nearest to it
    cases a with
    | int i =>
      rw [equal_int, decide_eq_true_eq] at first
      subst first
      exact .inl next
    | float x =>
      cases c with
      | int j =>
        rw [equal_int, decide_eq_true_eq] at next
        subst next
        exact .inl first
      | float y =>
        have nearest := equal_float_int_iff.1 first
        have nearest' := equal_int_float_iff.1 next
        refine .inl (equal_float_iff.2 ⟨isNaN_of_isFinite nearest.finite,
          isNaN_of_isFinite nearest'.finite, ?_⟩)
        rw [nearest.units_eq (natAbs_toInt_le k), nearest'.units_eq (natAbs_toInt_le k)]
      | _ => cases right
    | _ => cases left
  | float x =>
    cases a with
    | int i =>
      have nearest := equal_int_float_iff.1 first
      cases c with
      | int j =>
        by_cases same : i = j
        · subst same
          exact .inl ((equal_int w i i).trans (decide_eq_true rfl))
        · exact .inr ⟨i, j, x, rfl, rfl, rfl, same, nearest, equal_float_int_iff.1 next⟩
      | float y =>
        exact .inl (equal_int_float_iff.2 (nearest.of_units_eq (equal_float_iff.1 next).2.2.symm))
      | _ => cases right
    | float y =>
      obtain ⟨some, _, same⟩ := equal_float_iff.1 first
      cases c with
      | int j => exact .inl (equal_float_int_iff.2 ((equal_float_int_iff.1 next).of_units_eq same))
      | float z =>
        obtain ⟨_, some', same'⟩ := equal_float_iff.1 next
        exact .inl (equal_float_iff.2 ⟨some, some', same.trans same'⟩)
      | _ => cases right
    | _ => cases left
  | _ => cases middle

/-- Between short numbers nothing is lost. -/
theorem equal_trans_of_short (short : a.Short) (short' : c.Short) (left : a.units?.isSome = true)
    (middle : b.units?.isSome = true) (right : c.units?.isSome = true) (first : w.equal a b = true)
    (next : w.equal b c = true) : w.equal a c = true := by
  refine (equal_trans left middle right first next).resolve_right ?_
  rintro ⟨i, j, x, rfl, rfl, rfl, differ, nearest, nearest'⟩
  have same : i.toInt * unitsOfOne = j.toInt * unitsOfOne := by
    rw [← units_ofInt (short i rfl), ← units_ofInt (short' j rfl),
      ← nearest.units_eq (natAbs_toInt_le i), ← nearest'.units_eq (natAbs_toInt_le j)]
  exact differ (Int64.toInt_inj.1
    (Int.eq_of_mul_eq_mul_right (Int.ne_of_gt (Int.natCast_pos.2 unitsOfOne_pos)) same))

/-! ### Assignments left out -/

/-- An assignment that changes something leaves a change behind. -/
theorem change_of_dispatch {n : Nat} {o : ObjectId} {kind : ChangeKind} {name : String}
    {old new : Value} {r : Except BindError Unit}
    (run : dispatch (perform n) o kind name old new w = some (r, w')) :
    w'.change? ⟨w.objects.size⟩ = some ⟨kind, o, name, old, new⟩ := by
  unfold dispatch at run
  rw [Action.add_bind] at run
  obtain ⟨last, inner, rfl⟩ := Action.exists_of_holding run
  have known := w.change?_announce ⟨kind, o, name, old, new⟩
  have persists := ((World.performing n).makeKnown_at o name ⟨w.objects.size⟩ trivial
    fun _ y _ _ _ => World.frame_persists.tell _ y _).keeps _ _ inner
  exact persists.change? known

/-- An assignment over a value leaves the world as it is exactly if the values are equal. -/
theorem left_out_iff {n : Nat} {d : Dependency} {old : Value} (assignable : w.Assignable d)
    (here : w.valueOf? d = some old) {v : Value} :
    perform (n + 1) Unit (.setAttr (.object d.object) d.name v) w = some (.ok (), w) ↔
      w.equal old v = true := by
  refine ⟨fun run => ?_, fun same => setAttr_of_equal assignable here same _⟩
  obtain ⟨x, known, _⟩ := assignable
  rcases exists_of_assign known run with
    ⟨_, no, _⟩ | ⟨old', here', same, _⟩ | ⟨_, kind, old', w₁, w₂, stored, dispatched, ends⟩
  · cases no
  · rw [World.valueOf?, here'] at here
    cases here
    exact same
  · -- the change is something that was not there before
    have made := change_of_dispatch dispatched
    have sizes : w₁.objects.size = w.objects.size := by
      obtain ⟨_, _, _, rfl⟩ := stored
      exact Array.size_modify
    have objects : w₂.objects = w.objects := by
      obtain ⟨_, _, _, same⟩ := ends
      rw [same]
    rw [change?, entity?, objects, sizes, Array.getElem?_eq_none (Nat.le_refl _)] at made
    cases made

end World

/-- **Numbers are compared by rounding.** An integer and a floating-point number are equal, in
either order, exactly if the one is nearest to the other, a tie going to the even significand. Two
numbers are thus equal if they are the same number or one rounds to the other; they are never more
than 512 apart, and with integers of fifty-three bits they are the same. So equality is transitive,
except through a floating-point number between two integers that round to it, and an assignment of
one number over another is left out exactly if the two are the same or one rounds to the other. -/
theorem numbers_equal_by_rounding (w : World) :
    (∀ (i : Int64) (x : Binary64),
      w.equal (.int i) (.float x) = w.equal (.float x) (.int i) ∧
      (w.equal (.int i) (.float x) = true ↔ Nearest i.toInt x)) ∧
    (∀ {a b : Value} {u v : Int}, a.units? = some u → b.units? = some v →
      (w.equal a b = true ↔ u = v ∨ a.RoundsTo b ∨ b.RoundsTo a) ∧
      (w.equal a b = true → (u - v).natAbs ≤ 512 * unitsOfOne) ∧
      (a.Short → b.Short → (w.equal a b = true ↔ u = v))) ∧
    (∀ {a b c : Value}, a.units?.isSome = true → b.units?.isSome = true → c.units?.isSome = true →
      w.equal a b = true → w.equal b c = true →
      (w.equal a c = true ∨ ∃ i j x, a = .int i ∧ b = .float x ∧ c = .int j ∧ i ≠ j ∧
        Nearest i.toInt x ∧ Nearest j.toInt x) ∧
      (a.Short → c.Short → w.equal a c = true)) ∧
    (∀ (n : Nat) {d : Dependency} {old v : Value} {u u' : Int}, w.Assignable d →
      w.valueOf? d = some old → old.units? = some u → v.units? = some u' →
      (perform (n + 1) Unit (.setAttr (.object d.object) d.name v) w = some (.ok (), w) ↔
        u = u' ∨ old.RoundsTo v ∨ v.RoundsTo old)) := by
  refine ⟨fun i x => ⟨w.equal_comm _ _, World.equal_int_float_iff⟩, fun left right => ?_,
    fun left middle right first next => ?_, fun n d old v u u' assignable here left right => ?_⟩
  · exact ⟨World.equal_numbers_iff left right, World.natAbs_sub_le_of_equal left right,
      fun short short' => World.equal_short_iff short short' left right⟩
  · exact ⟨World.equal_trans left middle right first next, fun short short' =>
      World.equal_trans_of_short short short' left middle right first next⟩
  · exact (World.left_out_iff assignable here).trans (World.equal_numbers_iff left right)

namespace odometer

/-- Two to the fifty-third, as an integer and as a floating-point number, and the integer that
follows. -/
def full : Int64 := 9007199254740992

def float : Binary64 := ⟨0x4340000000000000⟩

def next : Int64 := 9007199254740993

/-- An object whose one attribute is a floating-point number. -/
def session : Program Unit := do
  let o ← .request (.newObject
    { typeName := "Item", parent := none, members := [], constants := .empty, storage := .empty
      attributes := .ofList [("n", .float float)], config := none })
  .request (.keep "item" (.object o))

def start : World := (session.run (perform 4) (.initial #[])).elim (.initial #[]) Prod.snd

theorem float_is_full : start.valueOf? ⟨⟨0⟩, "n"⟩ = some (.float float) ∧
    (start.declared? ⟨0⟩).any (fun d => !d.isConstant "n" && d.hasAttribute "n") = true ∧
    float.isNaN = false ∧ float.units = full.toInt * unitsOfOne ∧
    float.units ≠ next.toInt * unitsOfOne := by
  decide +kernel

theorem assignable : start.Assignable ⟨⟨0⟩, "n"⟩ := by
  obtain ⟨d, known, both⟩ := (Option.any_eq_true ..).1 float_is_full.2.1
  rw [Bool.and_eq_true, Bool.not_eq_true'] at both
  exact ⟨d, known, both⟩

/-- The integer is equal to the floating-point number, and takes no room of its own. -/
theorem keeps_float : start.equal (.int full) (.float float) = true ∧
    start.equal (.float float) (.int full) = true ∧
    perform 4 Unit (.setAttr (.object ⟨0⟩) "n" (.int full)) start = some (.ok (), start) := by
  obtain ⟨here, _, number, same, _⟩ := float_is_full
  obtain ⟨_, numbers, _, assigned⟩ := numbers_equal_by_rounding start
  have units : (Value.float float).units? = some float.units := Value.units?_float.2 ⟨number, rfl⟩
  have short : (Value.int full).Short := fun i is => by cases is; decide
  have short' : (Value.float float).Short := fun i is => by cases is
  have equal := ((numbers rfl units).2.2 short short').2 same.symm
  have back := ((numbers units rfl).2.2 short' short).2 same
  exact ⟨equal, back, (assigned 3 assignable here units rfl).2 (.inl same)⟩

/-- The next integer is equal to the floating-point number as well, though not to the other integer,
and is never stored. -/
theorem misses_next : start.equal (.int next) (.float float) = true ∧
    start.equal (.float float) (.int full) = true ∧ start.equal (.int next) (.int full) = false ∧
    float.units ≠ next.toInt * unitsOfOne ∧
    perform 4 Unit (.setAttr (.object ⟨0⟩) "n" (.int next)) start = some (.ok (), start) := by
  obtain ⟨here, _, _, _, differ⟩ := float_is_full
  have values : start.equal (.int next) (.float float) = true ∧
      start.equal (.float float) (.int full) = true ∧
      start.equal (.int next) (.int full) = false := by
    decide +kernel
  have same : start.equal (.float float) (.int next) = true := (start.equal_comm _ _).trans values.1
  exact ⟨values.1, values.2.1, values.2.2, differ, (World.left_out_iff assignable here).2 same⟩

end odometer

end LiveBinding
