import LiveBinding.Number.Binary64
import Mathlib.Algebra.Group.Int.Defs
import Mathlib.Algebra.Group.Nat.Defs

/-! Integers read as binary64 numbers.

The numbers of a binade lie `2 ^ p` units apart, and reading an integer divides its units by
that, to nearest and ties to even. What is read is therefore the number nearest to the integer,
and as every finite number from there on is a multiple of `2 ^ p` too, no finite number at all is
nearer. -/
namespace LiveBinding.Binary64
variable {x y : Binary64} {i j : Int} {p s : Nat} {b : Bool}

/-! ### Fields of a word -/

theorem toNat_signed {word : Nat} (small : word < 2 ^ 63) :
    (signed b word).bits.toNat = (if b then 2 ^ 63 else 0) + word := by
  unfold signed
  cases b with
  | false =>
    simp only [Bool.false_eq_true, if_false, UInt64.toNat_ofNat', Nat.zero_add]
    exact Nat.mod_eq_of_lt (by omega)
  | true =>
    simp only [if_true, UInt64.toNat_ofNat', Nat.shiftLeft_eq, Nat.one_mul]
    exact Nat.mod_eq_of_lt (by omega)

theorem negative_signed {word : Nat} (small : word < 2 ^ 63) : (signed b word).negative = b := by
  unfold negative
  rw [toNat_signed small, Nat.testBit_eq_decide_div_mod_eq]
  cases b with
  | false =>
    have none : (0 + word) / 2 ^ 63 = 0 := by omega
    simp only [Bool.false_eq_true, if_false, none]
    rfl
  | true =>
    have one : (2 ^ 63 + word) / 2 ^ 63 = 1 := by omega
    simp only [if_true, one]
    rfl

theorem exponentField_signed {word : Nat} (small : word < 2 ^ 63) :
    (signed b word).exponentField = word / 2 ^ 52 := by
  unfold exponentField
  rw [toNat_signed small, Nat.shiftRight_eq_div_pow]
  cases b <;> simp only [Bool.false_eq_true, if_false, if_true] <;> omega

theorem fraction_signed {word : Nat} (small : word < 2 ^ 63) :
    (signed b word).fraction = word % 2 ^ 52 := by
  unfold fraction
  rw [toNat_signed small, Nat.shiftLeft_eq]
  cases b <;> simp only [Bool.false_eq_true, if_false, if_true] <;> omega

theorem fraction_lt (x : Binary64) : x.fraction < 2 ^ 52 := by
  unfold fraction
  rw [Nat.shiftLeft_eq]
  omega

theorem magnitude_eq (x : Binary64) :
    x.magnitude = if x.exponentField = 0 then x.fraction
      else (2 ^ 52 + x.fraction) * 2 ^ (x.exponentField - 1) := by
  unfold magnitude
  simp only [Nat.shiftLeft_eq, Nat.one_mul]

/-! ### Places -/

theorem placed_lt (carries : s ≤ 2 ^ 53) (fits : p < 2045) : (p <<< 52) + s < 2 ^ 63 := by
  rw [Nat.shiftLeft_eq]
  omega

/-- A significand of fifty-three bits at the place `2 ^ p`; `2 ^ 53` carries into the exponent. -/
theorem magnitude_placed (full : 2 ^ 52 ≤ s) (carries : s ≤ 2 ^ 53) (fits : p < 2045) :
    (signed b ((p <<< 52) + s)).magnitude = s * 2 ^ p := by
  have small := placed_lt carries fits
  rw [magnitude_eq, exponentField_signed small, fraction_signed small, Nat.shiftLeft_eq]
  rcases Nat.lt_or_eq_of_le carries with less | rfl
  · have exponent : (p * 2 ^ 52 + s) / 2 ^ 52 = p + 1 := by omega
    have rest : (p * 2 ^ 52 + s) % 2 ^ 52 = s - 2 ^ 52 := by omega
    rw [exponent, rest, if_neg (Nat.succ_ne_zero p), Nat.add_sub_cancel, Nat.add_sub_cancel' full]
  · have exponent : (p * 2 ^ 52 + 2 ^ 53) / 2 ^ 52 = p + 2 := by omega
    have rest : (p * 2 ^ 52 + 2 ^ 53) % 2 ^ 52 = 0 := by omega
    rw [exponent, rest, if_neg (Nat.succ_ne_zero _)]
    calc (2 ^ 52 + 0) * 2 ^ (p + 1)
      _ = 2 ^ (52 + (p + 1)) := (Nat.pow_add ..).symm
      _ = 2 ^ (53 + p) := congrArg (2 ^ ·) (by omega)
      _ = 2 ^ 53 * 2 ^ p := Nat.pow_add ..

theorem fraction_placed (carries : s ≤ 2 ^ 53) (fits : p < 2045) :
    (signed b ((p <<< 52) + s)).fraction % 2 = s % 2 := by
  have small := placed_lt carries fits
  rw [fraction_signed small, Nat.shiftLeft_eq]
  omega

theorem isFinite_placed (carries : s ≤ 2 ^ 53) (fits : p < 2045) :
    (signed b ((p <<< 52) + s)).isFinite = true := by
  have small := placed_lt carries fits
  unfold isFinite
  rw [exponentField_signed small, Nat.shiftLeft_eq, bne_iff_ne]
  omega

/-- A larger exponent is a larger magnitude. -/
theorem magnitude_lt_of_exponentField (less : x.exponentField < y.exponentField) :
    x.magnitude < y.magnitude := by
  have below : x.magnitude < 2 ^ 52 * 2 ^ x.exponentField := by
    rw [magnitude_eq]
    have := x.fraction_lt
    split
    · next zero =>
      rw [zero]
      omega
    · next some =>
      calc (2 ^ 52 + x.fraction) * 2 ^ (x.exponentField - 1)
        _ < 2 ^ 53 * 2 ^ (x.exponentField - 1) :=
          Nat.mul_lt_mul_of_pos_right (by omega) (Nat.two_pow_pos _)
        _ = 2 ^ (53 + (x.exponentField - 1)) := (Nat.pow_add ..).symm
        _ = 2 ^ (52 + x.exponentField) := congrArg (2 ^ ·) (by omega)
        _ = 2 ^ 52 * 2 ^ x.exponentField := Nat.pow_add ..
  have above : 2 ^ 52 * 2 ^ (y.exponentField - 1) ≤ y.magnitude := by
    rw [magnitude_eq, if_neg (Nat.ne_zero_of_lt less)]
    exact Nat.mul_le_mul_right _ (Nat.le_add_right ..)
  have between : 2 ^ x.exponentField ≤ 2 ^ (y.exponentField - 1) :=
    Nat.pow_le_pow_right Nat.two_pos (Nat.le_sub_one_of_lt less)
  exact Nat.lt_of_lt_of_le below (Nat.le_trans (Nat.mul_le_mul_left _ between) above)

/-- A magnitude is written in one way only. -/
theorem fields_of_magnitude_eq (same : x.magnitude = y.magnitude) :
    x.exponentField = y.exponentField ∧ x.fraction = y.fraction := by
  have exponents : x.exponentField = y.exponentField := by
    rcases Nat.lt_trichotomy x.exponentField y.exponentField with less | equal | more
    · exact absurd same (Nat.ne_of_lt (magnitude_lt_of_exponentField less))
    · exact equal
    · exact absurd same.symm (Nat.ne_of_lt (magnitude_lt_of_exponentField more))
  refine ⟨exponents, ?_⟩
  rw [magnitude_eq, magnitude_eq, exponents] at same
  split at same
  · exact same
  · exact Nat.add_left_cancel (Nat.eq_of_mul_eq_mul_right (Nat.two_pow_pos _) same)

/-- From the `p`-th binade on, numbers are multiples of its place. -/
theorem magnitude_spaced (x : Binary64) (p : Nat) :
    x.magnitude < 2 ^ (52 + p) ∨ 2 ^ p ∣ x.magnitude := by
  have := x.fraction_lt
  rw [magnitude_eq]
  split
  · exact .inl (Nat.lt_of_lt_of_le this (Nat.pow_le_pow_right Nat.two_pos (Nat.le_add_right ..)))
  · next some =>
    by_cases low : x.exponentField - 1 < p
    · refine .inl ?_
      calc (2 ^ 52 + x.fraction) * 2 ^ (x.exponentField - 1)
        _ < 2 ^ 53 * 2 ^ (x.exponentField - 1) :=
          Nat.mul_lt_mul_of_pos_right (by omega) (Nat.two_pow_pos _)
        _ = 2 ^ (53 + (x.exponentField - 1)) := (Nat.pow_add ..).symm
        _ ≤ 2 ^ (52 + p) := Nat.pow_le_pow_right Nat.two_pos (by omega)
    · exact .inr (Nat.dvd_mul_left_of_dvd (Nat.pow_dvd_pow 2 (Nat.le_of_not_lt low)) _)

theorem natAbs_units (x : Binary64) : x.units.natAbs = x.magnitude := by
  unfold units
  split
  · rw [Int.natAbs_neg, Int.natAbs_natCast]
  · exact Int.natAbs_natCast _

/-! ### Division to nearest -/

section Division
variable {a d : Nat}

theorem le_divideToEven (positive : 0 < d) : 2 * a ≤ 2 * (divideToEven a d * d) + d := by
  have whole := Nat.div_add_mod a d
  have small := Nat.mod_lt a positive
  rw [Nat.mul_comm] at whole
  unfold divideToEven
  dsimp only
  split
  · omega
  · split
    · rw [Nat.add_mul]
      omega
    · rw [Nat.add_mul]
      omega

theorem divideToEven_le (positive : 0 < d) : 2 * (divideToEven a d * d) ≤ 2 * a + d := by
  have whole := Nat.div_add_mod a d
  have small := Nat.mod_lt a positive
  rw [Nat.mul_comm] at whole
  unfold divideToEven
  dsimp only
  split
  · omega
  · split
    · rw [Nat.add_mul]
      omega
    · rcases Nat.mod_two_eq_zero_or_one (a / d) with even | odd
      · rw [even, Nat.add_zero]
        omega
      · rw [odd, Nat.add_mul]
        omega

/-- A tie goes to an even quotient. -/
theorem divideToEven_tie (positive : 0 < d) {k : Nat} (tie : 2 * a = (2 * k + 1) * d) :
    divideToEven a d % 2 = 0 := by
  have whole := Nat.div_add_mod a d
  have small := Nat.mod_lt a positive
  rw [Nat.mul_comm] at whole
  have parts : (2 * k + 1) * d = 2 * (a / d) * d + 2 * (a % d) := by
    rw [Nat.mul_assoc]
    omega
  have lower : 2 * (a / d) ≤ 2 * k + 1 := Nat.le_of_mul_le_mul_right (by omega) positive
  have upper : 2 * k + 1 < 2 * (a / d) + 2 := by
    refine Nat.lt_of_mul_lt_mul_right (a := d) ?_
    rw [parts, Nat.add_mul]
    omega
  have quotient : a / d = k := by omega
  have half : 2 * (a % d) = d := by
    rw [quotient, Nat.add_mul] at parts
    omega
  unfold divideToEven
  dsimp only
  rw [half, if_neg (Nat.lt_irrefl d), if_neg (Nat.lt_irrefl d)]
  omega

end Division

/-! ### Rounding to a place -/

/-- `s` places of `2 ^ p` units are what `a` units are rounded to. -/
structure Rounds (a p s : Nat) : Prop where
  lower : 2 ^ 52 * 2 ^ p ≤ a
  upper : a < 2 ^ 53 * 2 ^ p
  below : 2 * a ≤ 2 * (s * 2 ^ p) + 2 ^ p
  above : 2 * (s * 2 ^ p) ≤ 2 * a + 2 ^ p
  even : ∀ {k}, 2 * a = (2 * k + 1) * 2 ^ p → s % 2 = 0

namespace Rounds
variable {a : Nat} {z : Int}

theorem full (rounds : Rounds a p s) : 2 ^ 52 ≤ s := by
  have bound : 2 * 2 ^ 52 * 2 ^ p ≤ (2 * s + 1) * 2 ^ p := by
    have := rounds.lower
    have := rounds.below
    rw [Nat.add_mul, Nat.mul_assoc, Nat.mul_assoc]
    omega
  have := Nat.le_of_mul_le_mul_right bound (Nat.two_pow_pos p)
  omega

theorem carries (rounds : Rounds a p s) : s ≤ 2 ^ 53 := by
  have bound : 2 * s * 2 ^ p < (2 * 2 ^ 53 + 1) * 2 ^ p := by
    have := rounds.upper
    have := rounds.above
    rw [Nat.add_mul, Nat.mul_assoc, Nat.mul_assoc]
    omega
  have := Nat.lt_of_mul_lt_mul_right bound
  omega

/-- What is rounded and what it is rounded to are half a place apart at most. -/
theorem near (rounds : Rounds a p s) : (2 * a : Int) ≤ 2 * (s * 2 ^ p) + 2 ^ p ∧
    (2 * (s * 2 ^ p) : Int) ≤ 2 * a + 2 ^ p :=
  ⟨mod_cast rounds.below, mod_cast rounds.above⟩

/-- A tie is half a place above a number of the binade. -/
theorem half_above (rounds : Rounds a p s) {t : Nat}
    (half : (2 * a : Int) = 2 * (t * 2 ^ p) + 2 ^ p) : s % 2 = 0 ∧ 2 ^ 52 ≤ t ∧ t < 2 ^ 53 := by
  have same : 2 * a = (2 * t + 1) * 2 ^ p := by
    rw [Nat.add_mul, Nat.mul_assoc, Nat.one_mul]
    exact mod_cast half
  have least : 2 * 2 ^ 52 * 2 ^ p ≤ (2 * t + 1) * 2 ^ p := by
    have := rounds.lower
    rw [← same, Nat.mul_assoc]
    omega
  have most : (2 * t + 1) * 2 ^ p < 2 * 2 ^ 53 * 2 ^ p := by
    have := rounds.upper
    rw [← same, Nat.mul_assoc]
    omega
  have := Nat.le_of_mul_le_mul_right least (Nat.two_pow_pos p)
  have := Nat.lt_of_mul_lt_mul_right most
  exact ⟨rounds.even same, by omega, by omega⟩

/-- No multiple of the place is nearer. -/
theorem le_multiple (rounds : Rounds a p s) (k : Int) :
    (s * 2 ^ p - a : Int).natAbs ≤ (k * 2 ^ p - a).natAbs := by
  obtain ⟨below, above⟩ := rounds.near
  have positive : (0 : Int) ≤ 2 ^ p := Int.le_of_lt (Int.pow_pos (by decide))
  rcases Int.lt_trichotomy k s with less | rfl | more
  · have apart : (k + 1) * 2 ^ p ≤ (s : Int) * 2 ^ p := Int.mul_le_mul_of_nonneg_right less positive
    rw [Int.add_mul, Int.one_mul] at apart
    omega
  · exact Nat.le_refl _
  · have apart : ((s : Int) + 1) * 2 ^ p ≤ k * 2 ^ p := Int.mul_le_mul_of_nonneg_right more positive
    rw [Int.add_mul, Int.one_mul] at apart
    omega

/-- Another multiple that is as near is on the other side of a tie, where it is the odd one. -/
theorem tie (rounds : Rounds a p s) {k : Int} (differ : k ≠ s)
    (same : (k * 2 ^ p - a).natAbs = (s * 2 ^ p - a : Int).natAbs) :
    s % 2 = 0 ∧ ∃ t : Nat, k = t ∧ t % 2 = 1 ∧ 2 ^ 52 ≤ t ∧ t < 2 ^ 53 := by
  obtain ⟨below, above⟩ := rounds.near
  have positive : (0 : Int) < 2 ^ p := Int.pow_pos (by decide)
  rcases Int.lt_or_gt_of_ne differ with less | more
  · have apart : (k + 1) * 2 ^ p ≤ (s : Int) * 2 ^ p :=
      Int.mul_le_mul_of_nonneg_right less (Int.le_of_lt positive)
    have touch : (k + 1) * 2 ^ p = (s : Int) * 2 ^ p := by
      rw [Int.add_mul, Int.one_mul] at apart ⊢
      omega
    have next : k + 1 = s := Int.eq_of_mul_eq_mul_right (Int.ne_of_gt positive) touch
    have full := rounds.full
    obtain ⟨t, rfl⟩ : ∃ t : Nat, k = t := ⟨(s - 1 : Nat), by omega⟩
    rw [Int.add_mul, Int.one_mul] at touch
    obtain ⟨even, least, most⟩ := rounds.half_above (t := t) (by omega)
    exact ⟨even, t, rfl, by omega, least, most⟩
  · have apart : ((s : Int) + 1) * 2 ^ p ≤ k * 2 ^ p :=
      Int.mul_le_mul_of_nonneg_right more (Int.le_of_lt positive)
    have touch : ((s : Int) + 1) * 2 ^ p = k * 2 ^ p := by
      rw [Int.add_mul, Int.one_mul] at apart ⊢
      omega
    have next : (s : Int) + 1 = k := Int.eq_of_mul_eq_mul_right (Int.ne_of_gt positive) touch
    rw [Int.add_mul, Int.one_mul] at touch
    obtain ⟨even, least, most⟩ := rounds.half_above (t := s) (by omega)
    exact ⟨even, s + 1, by omega, by omega, by omega, by omega⟩

/-- Rounding is off by half a place at most. -/
theorem off_by (rounds : Rounds a p s) {c : Nat} (width : 2 ^ p ≤ 2 * c) :
    (s * 2 ^ p - a : Int).natAbs ≤ c := by
  obtain ⟨below, above⟩ := rounds.near
  have place : (2 ^ p : Int) ≤ 2 * c := mod_cast width
  omega

/-- Short of the binade nothing is as near. -/
theorem lt_short (rounds : Rounds a p s) (short : z < 2 ^ 52 * 2 ^ p) :
    (s * 2 ^ p - a : Int).natAbs < (z - a).natAbs := by
  have lower : (2 ^ 52 * 2 ^ p : Int) ≤ a := mod_cast rounds.lower
  have := rounds.le_multiple (2 ^ 52)
  omega

/-- No multiple of the place is off by anything. -/
theorem exact (rounds : Rounds a p s) {k : Int} (multiple : (a : Int) = k * 2 ^ p) :
    (s * 2 ^ p : Int) = a := by
  have := rounds.le_multiple k
  omega

/-- The place of `m` times a power of two follows the bits of `m`; a power of two is its own
place, or below it. -/
theorem place {m n t : Nat} (rounds : Rounds (m * 2 ^ n) p s) (small : m ≤ 2 ^ (53 + t)) :
    p ≤ n + t ∨ m * 2 ^ n = 2 ^ 52 * 2 ^ p := by
  by_cases low : p ≤ n + t
  · exact .inl low
  · refine .inr (Nat.le_antisymm ?_ rounds.lower)
    calc m * 2 ^ n
      _ ≤ 2 ^ (53 + t) * 2 ^ n := Nat.mul_le_mul_right _ small
      _ = 2 ^ (52 + (n + t + 1)) := by rw [← Nat.pow_add]; exact congrArg (2 ^ ·) (by omega)
      _ ≤ 2 ^ (52 + p) := Nat.pow_le_pow_right Nat.two_pos (by omega)
      _ = 2 ^ 52 * 2 ^ p := Nat.pow_add ..

end Rounds

theorem rounds_divideToEven {a : Nat} (large : 2 ^ 52 ≤ a) :
    Rounds a (Nat.log2 a - 52) (divideToEven a (2 ^ (Nat.log2 a - 52))) where
  lower := by
    have := (Nat.le_log2 (by omega)).2 large
    rw [← Nat.pow_add, Nat.add_sub_cancel' this]
    exact Nat.log2_self_le (by omega)
  upper := by
    have := (Nat.le_log2 (by omega)).2 large
    rw [← Nat.pow_add]
    have exponent : 53 + (Nat.log2 a - 52) = Nat.log2 a + 1 := by omega
    rw [exponent]
    exact Nat.lt_log2_self
  below := le_divideToEven (Nat.two_pow_pos _)
  above := divideToEven_le (Nat.two_pow_pos _)
  even := divideToEven_tie (Nat.two_pow_pos _)

/-! ### Integers -/

/-- How far a number is from an integer, in units. -/
def gap (x : Binary64) (i : Int) : Nat := (x.units - i * unitsOfOne).natAbs

/-- The units of a number, counted in the direction of an integer. -/
def towards (x : Binary64) (i : Int) : Int := if i < 0 then -x.units else x.units

theorem natAbs_towards (x : Binary64) (i : Int) : (x.towards i).natAbs = x.magnitude := by
  unfold towards
  split
  · rw [Int.natAbs_neg, natAbs_units]
  · exact natAbs_units x

theorem units_eq_of_towards (same : x.towards i = y.towards i) : x.units = y.units := by
  unfold towards at same
  split at same <;> omega

theorem gap_eq (x : Binary64) (i : Int) :
    x.gap i = (x.towards i - (i.natAbs * unitsOfOne : Nat)).natAbs := by
  unfold gap towards
  rw [Int.natCast_mul]
  split
  · next negative =>
    have size : (i.natAbs : Int) = -i := by omega
    rw [size, Int.neg_mul]
    omega
  · next positive =>
    have size : (i.natAbs : Int) = i := by omega
    rw [size]

/-- A number that is further in the direction of an integer than the `p`-th binade is a multiple
of its place. -/
theorem towards_spaced (x : Binary64) (i : Int) (p : Nat) :
    x.towards i < 2 ^ 52 * 2 ^ p ∨ ∃ k : Int, x.towards i = k * 2 ^ p := by
  have size := x.natAbs_towards i
  rcases x.magnitude_spaced p with below | ⟨k, whole⟩
  · rw [Nat.pow_add] at below
    have : (x.magnitude : Int) < 2 ^ 52 * 2 ^ p := mod_cast below
    exact .inl (by omega)
  · have whole' : (x.magnitude : Int) = 2 ^ p * k := mod_cast whole
    rw [Int.mul_comm] at whole'
    rcases Int.natAbs_eq (x.towards i) with positive | negative
    · exact .inr ⟨k, by omega⟩
    · exact .inr ⟨-k, by rw [Int.neg_mul]; omega⟩

/-- One is a power of two that leaves room for fifty-two bits of fraction. -/
theorem exists_unitsOfOne : ∃ n, 52 ≤ n ∧ n ≤ 1074 ∧ unitsOfOne = 2 ^ n := by
  have shifted (n : Nat) : 1 <<< n = 2 ^ n := Nat.one_shiftLeft n
  exact ⟨1074, by decide, by decide, shifted 1074⟩

theorem unitsOfOne_pos : 0 < unitsOfOne := by
  obtain ⟨n, _, _, one⟩ := exists_unitsOfOne
  rw [one]
  exact Nat.two_pow_pos n

/-- What an integer is read as. -/
theorem ofInt_rounds (some : i ≠ 0) (small : i.natAbs ≤ 2 ^ 63) :
    ∃ p s, Rounds (i.natAbs * unitsOfOne) p s ∧ p < 2045 ∧
      ofInt i = signed (decide (i < 0)) ((p <<< 52) + s) := by
  obtain ⟨n, room, bound, one⟩ := exists_unitsOfOne
  have large : 2 ^ 52 ≤ i.natAbs * unitsOfOne := by
    rw [one]
    exact Nat.le_trans (Nat.pow_le_pow_right Nat.two_pos room)
      (Nat.le_mul_of_pos_left _ (Int.natAbs_pos.2 some))
  have place : Nat.log2 (i.natAbs * unitsOfOne) - 52 < 2045 := by
    have most : i.natAbs * unitsOfOne < 2 ^ (64 + n) := by
      rw [one, Nat.pow_add]
      exact Nat.mul_lt_mul_of_pos_right (by omega) (Nat.two_pow_pos n)
    have := (Nat.log2_lt (Nat.ne_of_gt (Nat.lt_of_lt_of_le (by decide) large))).2 most
    omega
  have rounds := rounds_divideToEven large
  have carries := rounds.carries
  refine ⟨_, _, rounds, place, ?_⟩
  unfold ofInt ofUnits
  simp only [Nat.div_one, Nat.shiftLeft_eq, Nat.one_mul]
  rw [Nat.min_eq_left (by omega)]

theorem units_ofInt_zero : (ofInt 0).units = 0 := by decide

theorem gap_ofInt_zero : (ofInt 0).gap 0 = 0 := by decide

theorem towards_ofInt (some : i ≠ 0) (small : i.natAbs ≤ 2 ^ 63) :
    ∃ p s, Rounds (i.natAbs * unitsOfOne) p s ∧ p < 2045 ∧ (ofInt i).isFinite = true ∧
      (ofInt i).towards i = s * 2 ^ p ∧ (ofInt i).fraction % 2 = s % 2 := by
  obtain ⟨p, s, rounds, fits, word⟩ := ofInt_rounds some small
  have full := rounds.full
  have carries := rounds.carries
  refine ⟨p, s, rounds, fits, word ▸ isFinite_placed carries fits, ?_,
    word ▸ fraction_placed carries fits⟩
  rw [word, towards, units, negative_signed (placed_lt carries fits),
    magnitude_placed full carries fits]
  by_cases negative : i < 0
  · simp [negative]
  · simp [negative]

/-- An integer is rounded to nearest, a tie to the number whose last bit is clear. -/
structure Nearest (i : Int) (x : Binary64) : Prop where
  finite : x.isFinite = true
  least : ∀ y : Binary64, y.isFinite = true → x.gap i ≤ y.gap i
  even : ∀ y : Binary64, y.isFinite = true → y.gap i = x.gap i → y.units ≠ x.units →
    x.fraction % 2 = 0

theorem nearest_ofInt (small : i.natAbs ≤ 2 ^ 63) : Nearest i (ofInt i) := by
  by_cases zero : i = 0
  · subst zero
    refine ⟨by decide, fun y _ => gap_ofInt_zero ▸ Nat.zero_le _, fun y _ same differ =>
      absurd ?_ differ⟩
    rw [gap_ofInt_zero, gap] at same
    rw [units_ofInt_zero]
    omega
  · obtain ⟨p, s, rounds, fits, finite, units, fraction⟩ := towards_ofInt zero small
    refine ⟨finite, fun y _ => ?_, fun y _ same differ => ?_⟩
    · rw [gap_eq, gap_eq, units]
      rcases y.towards_spaced i p with short | ⟨k, multiple⟩
      · exact Nat.le_of_lt (rounds.lt_short short)
      · rw [multiple]
        exact rounds.le_multiple k
    · rw [gap_eq, gap_eq, units] at same
      rcases y.towards_spaced i p with short | ⟨k, multiple⟩
      · exact absurd same (Nat.ne_of_gt (rounds.lt_short short))
      · rw [multiple] at same
        have other : k ≠ s := fun equal =>
          differ (units_eq_of_towards (multiple.trans (equal ▸ units.symm)))
        exact fraction.trans (rounds.tie other same).1

/-- An integer is nearest to one number. -/
theorem Nearest.units_eq (small : i.natAbs ≤ 2 ^ 63) (nearest : Nearest i x) :
    x.units = (ofInt i).units := by
  have read := nearest_ofInt small
  have same : x.gap i = (ofInt i).gap i :=
    Nat.le_antisymm (nearest.least _ read.finite) (read.least _ nearest.finite)
  by_cases zero : i = 0
  · subst zero
    rw [gap_ofInt_zero, gap] at same
    rw [units_ofInt_zero]
    omega
  refine Decidable.byContradiction fun differ => ?_
  have even := nearest.even _ read.finite same.symm (Ne.symm differ)
  obtain ⟨p, s, rounds, fits, finite, units, fraction⟩ := towards_ofInt zero small
  rw [gap_eq, gap_eq, units] at same
  rcases x.towards_spaced i p with short | ⟨k, multiple⟩
  · exact absurd same (Nat.ne_of_gt (rounds.lt_short short))
  rw [multiple] at same
  have other : k ≠ s := fun equal =>
    differ (units_eq_of_towards (multiple.trans (equal ▸ units.symm)))
  obtain ⟨_, t, rfl, odd, full, carries⟩ := rounds.tie other same
  have magnitude : x.magnitude = (signed false ((p <<< 52) + t)).magnitude := by
    rw [magnitude_placed full (Nat.le_of_lt carries) fits, ← x.natAbs_towards i, multiple]
    exact mod_cast Int.natAbs_natCast (t * 2 ^ p)
  have last : x.fraction % 2 = t % 2 := by
    rw [(fields_of_magnitude_eq magnitude).2]
    exact fraction_placed (Nat.le_of_lt carries) fits
  omega

theorem magnitude_eq_of_units_eq (same : x.units = y.units) : x.magnitude = y.magnitude := by
  rw [← natAbs_units, ← natAbs_units, same]

theorem isFinite_of_units_eq (same : x.units = y.units) : x.isFinite = y.isFinite := by
  rw [isFinite, isFinite, (fields_of_magnitude_eq (magnitude_eq_of_units_eq same)).1]

theorem Nearest.of_units_eq (nearest : Nearest i y) (same : x.units = y.units) : Nearest i x := by
  have gaps : x.gap i = y.gap i := by rw [gap, gap, same]
  refine ⟨(isFinite_of_units_eq same).trans nearest.finite, fun z finite => ?_,
    fun z finite as differ => ?_⟩
  · rw [gaps]
    exact nearest.least z finite
  · rw [(fields_of_magnitude_eq (magnitude_eq_of_units_eq same)).2]
    exact nearest.even z finite (as.trans gaps) fun equal => differ (equal.trans same.symm)

theorem isNaN_of_isFinite (finite : x.isFinite = true) : x.isNaN = false := by
  rw [isFinite, bne_iff_ne] at finite
  rw [isNaN, beq_eq_false_iff_ne.2 finite]
  rfl

theorem equal_iff : x.equal y = true ↔ x.isNaN = false ∧ y.isNaN = false ∧ x.units = y.units := by
  simp [equal, and_assoc]

/-- **An integer equals exactly the numbers nearest to it.** -/
theorem ofInt_equal_iff (small : i.natAbs ≤ 2 ^ 63) : (ofInt i).equal x = true ↔ Nearest i x := by
  have read := nearest_ofInt small
  rw [equal_iff]
  constructor
  · rintro ⟨_, _, same⟩
    exact read.of_units_eq same.symm
  · intro nearest
    exact ⟨isNaN_of_isFinite read.finite, isNaN_of_isFinite nearest.finite,
      (nearest.units_eq small).symm⟩

/-! ### Exact integers -/

/-- A number that is an integer of 64 bits is finite. -/
theorem isFinite_of_units (small : i.natAbs ≤ 2 ^ 63) (exact : x.units = i * unitsOfOne) :
    x.isFinite = true := by
  obtain ⟨n, _, bound, one⟩ := exists_unitsOfOne
  have size : x.magnitude = i.natAbs * 2 ^ n := by
    rw [← natAbs_units, exact, Int.natAbs_mul, Int.natAbs_natCast, one]
  -- a finite number of more than 64 bits to compare with
  let y := signed false (((n + 12) <<< 52) + 2 ^ 52)
  have finite : y.isFinite = true := isFinite_placed (by decide) (by omega)
  have larger : x.magnitude < y.magnitude := by
    rw [size, magnitude_placed (by decide) (by decide) (by omega), ← Nat.pow_add]
    have exponent : 52 + (n + 12) = 64 + n := by omega
    rw [exponent, Nat.pow_add]
    exact Nat.mul_lt_mul_of_pos_right (by omega) (Nat.two_pow_pos n)
  rw [isFinite, bne_iff_ne] at finite ⊢
  intro top
  have less : y.exponentField < x.exponentField := by
    have : y.exponentField < 2048 := Nat.mod_lt _ (by decide)
    omega
  exact absurd (magnitude_lt_of_exponentField less) (Nat.not_lt_of_gt larger)

/-- An integer is nearest to the number that it is. -/
theorem nearest_of_units_eq (small : i.natAbs ≤ 2 ^ 63) (exact : x.units = i * unitsOfOne) :
    Nearest i x := by
  have here : x.gap i = 0 := by rw [gap, exact, Int.sub_self, Int.natAbs_zero]
  refine ⟨isFinite_of_units small exact, fun y _ => here ▸ Nat.zero_le _, fun y _ same differ => ?_⟩
  rw [here, gap, Int.natAbs_eq_zero, Int.sub_eq_zero] at same
  exact absurd (same.trans exact.symm) differ

/-- Integers of fifty-three bits are read exactly. -/
theorem units_ofInt (small : i.natAbs ≤ 2 ^ 53) : (ofInt i).units = i * unitsOfOne := by
  by_cases zero : i = 0
  · subst zero
    exact units_ofInt_zero.trans (Int.zero_mul _).symm
  obtain ⟨p, s, rounds, _, _, units, _⟩ := towards_ofInt zero (by omega)
  obtain ⟨n, _, _, one⟩ := exists_unitsOfOne
  obtain ⟨k, multiple⟩ : ∃ k, i.natAbs * unitsOfOne = k * 2 ^ p := by
    rw [one] at rounds ⊢
    rcases rounds.place (t := 0) small with low | power
    · obtain ⟨k, factor⟩ := Nat.pow_dvd_pow 2 low
      exact ⟨i.natAbs * k, by rw [Nat.add_zero] at factor; rw [factor]; ac_rfl⟩
    · exact ⟨2 ^ 52, power⟩
  have exact : (ofInt i).gap i = 0 := by
    rw [gap_eq, units, rounds.exact (k := k) (mod_cast multiple), Int.sub_self, Int.natAbs_zero]
  exact Int.sub_eq_zero.1 (Int.natAbs_eq_zero.1 exact)

/-- Reading an integer of 64 bits is off by 512 at most. -/
theorem gap_ofInt_le (small : i.natAbs ≤ 2 ^ 63) : (ofInt i).gap i ≤ 512 * unitsOfOne := by
  by_cases zero : i = 0
  · subst zero
    exact gap_ofInt_zero ▸ Nat.zero_le _
  obtain ⟨p, s, rounds, _, _, units, _⟩ := towards_ofInt zero small
  obtain ⟨n, _, _, one⟩ := exists_unitsOfOne
  rw [gap_eq, units, one]
  rw [one] at rounds
  rcases rounds.place (t := 10) small with low | power
  · have width : 2 ^ p ≤ 2 ^ 10 * 2 ^ n := by
      rw [← Nat.pow_add]
      exact Nat.pow_le_pow_right Nat.two_pos (by omega)
    exact rounds.off_by (by omega)
  · rw [rounds.exact (k := 2 ^ 52) (mod_cast power), Int.sub_self]
    exact Nat.zero_le _

/-- Integers are read in their order. -/
theorem units_ofInt_mono (less : i ≤ j) (small : i.natAbs ≤ 2 ^ 63) (small' : j.natAbs ≤ 2 ^ 63) :
    (ofInt i).units ≤ (ofInt j).units := by
  rcases Int.lt_or_eq_of_le less with less | rfl
  · have read := nearest_ofInt small
    have read' := nearest_ofInt small'
    have first := read.least _ read'.finite
    have second := read'.least _ read.finite
    have apart : i * unitsOfOne < j * unitsOfOne :=
      Int.mul_lt_mul_of_pos_right less (Int.natCast_pos.2 unitsOfOne_pos)
    unfold gap at first second
    omega
  · exact Int.le_refl _

end LiveBinding.Binary64
