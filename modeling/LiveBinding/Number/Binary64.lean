/-! Binary floating-point numbers of 64 bits, as data.

A number is its bits. Everything asked of it here is arithmetic on naturals: the
magnitude of a number counts units of `2 ^ -1074`, the smallest positive number,
so every finite number is an integer of units, order is the order of integers, and
reading an exact quotient is one division rounded to nearest, ties to even. -/
namespace LiveBinding

/-- A binary64 number: sign bit, eleven bits of exponent, fifty-two of fraction. -/
structure Binary64 where
  bits : UInt64
deriving DecidableEq, Repr, Inhabited

namespace Binary64

/-! ### Fields -/

def negative (x : Binary64) : Bool := x.bits.toNat.testBit 63

def exponentField (x : Binary64) : Nat := (x.bits.toNat >>> 52) % 2048

def fraction (x : Binary64) : Nat := x.bits.toNat % (1 <<< 52)

def isNaN (x : Binary64) : Bool := x.exponentField == 2047 && x.fraction != 0

def isInfinite (x : Binary64) : Bool := x.exponentField == 2047 && x.fraction == 0

def isFinite (x : Binary64) : Bool := x.exponentField != 2047

/-- The absolute value in units of `2 ^ -1074`. The infinities count as the number
that would follow the largest finite one. -/
def magnitude (x : Binary64) : Nat :=
  if x.exponentField = 0 then x.fraction else ((1 <<< 52) + x.fraction) <<< (x.exponentField - 1)

/-- The value in units of `2 ^ -1074`; both zeros are `0`. -/
def units (x : Binary64) : Int := if x.negative then -(x.magnitude : Int) else x.magnitude

/-- How many units make one. -/
def unitsOfOne : Nat := 1 <<< 1074

/-! ### Order -/

/-- Equality of values: the zeros agree, and a NaN agrees with nothing. -/
def equal (x y : Binary64) : Bool := !x.isNaN && !y.isNaN && x.units == y.units

/-- A NaN is neither below nor above anything. -/
def less (x y : Binary64) : Bool := !x.isNaN && !y.isNaN && decide (x.units < y.units)

def isZero (x : Binary64) : Bool := x.magnitude == 0

/-! ### Building -/

/-- The powers of ten. -/
def tenTo (n : Nat) : Nat := Nat.pow 10 n

/-- The quotient rounded to nearest, a tie to the even neighbour. -/
def divideToEven (a d : Nat) : Nat :=
  let q := a / d
  let r := a % d
  if 2 * r < d then q else if d < 2 * r then q + 1 else q + q % 2

def signed (negative : Bool) (word : Nat) : Binary64 :=
  ⟨UInt64.ofNat (if negative then (1 <<< 63) + word else word)⟩

def zero : Binary64 := ⟨0⟩

def one : Binary64 := ⟨0x3FF0000000000000⟩

def nan : Binary64 := ⟨0x7FF8000000000000⟩

def infinity (negative : Bool) : Binary64 := signed negative (2047 <<< 52)

/-- The number nearest to `a / d` units, infinite past the largest finite one. The
unit of the last place is `2 ^ p` units, and a significand of `2 ^ 53` carries into
the exponent by itself. -/
def ofUnits (negative : Bool) (a d : Nat) : Binary64 :=
  let p := Nat.log2 (a / d) - 52
  signed negative (min ((p <<< 52) + divideToEven a (d <<< p)) (2047 <<< 52))

/-- The number nearest to an integer. -/
def ofInt (i : Int) : Binary64 := ofUnits (decide (i < 0)) (i.natAbs * unitsOfOne) 1

/-- The number nearest to `digits * 10 ^ exponent`. An exponent far outside the
range decides the answer without computing the power. -/
def ofDecimal (negative : Bool) (digits : Nat) (exponent : Int) : Binary64 :=
  if digits = 0 then signed negative 0
  else if 400 < exponent then infinity negative
  else if exponent < -(400 + (Nat.log2 digits : Int)) then signed negative 0
  else if 0 ≤ exponent then ofUnits negative (digits * tenTo exponent.toNat * unitsOfOne) 1
  else ofUnits negative (digits * unitsOfOne) (tenTo (-exponent).toNat)

def abs (x : Binary64) : Binary64 := ⟨UInt64.ofNat (x.bits.toNat % (1 <<< 63))⟩

/-! ### Integers of 64 bits -/

/-- Cuts the fraction off and clamps into the range; a NaN gives zero. -/
def truncate (x : Binary64) : Int64 :=
  if x.isNaN then 0
  else
    let n : Int := x.magnitude / unitsOfOne
    let i := if x.negative then -n else n
    Int64.ofInt (max Int64.minValue.toInt (min i Int64.maxValue.toInt))

/-- The number nearest to a 64-bit integer. -/
def ofInt64 (i : Int64) : Binary64 := ofInt i.toInt

end Binary64

end LiveBinding
