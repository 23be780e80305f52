import LiveBinding.Number.Binary64

/-! Decimal text of binary64 numbers.

`Decimal.shortest` picks, among all decimals that read back as the number, one
with the fewest digits, and of those the nearest; a `Layout` says how the digits are
written. -/
namespace LiveBinding

/-- The number `digits * 10 ^ exponent`. -/
structure Decimal where
  digits : Nat
  exponent : Int
deriving DecidableEq, Repr, Inhabited

namespace Decimal
open Binary64 (unitsOfOne tenTo)

/-! ### Choosing the digits -/

def width (n : Nat) : Nat := (Nat.toDigits 10 n).length

/-- The place of the leading digit of `m` units: the `k` with
`10 ^ (k - 1) ≤ m / unitsOfOne < 10 ^ k`, for `0 < m`. -/
def leading (m : Nat) : Int :=
  if unitsOfOne ≤ m then width (m / unitsOfOne)
  else 1 - (width ((unitsOfOne + m - 1) / m - 1) : Int)

/-- The multiple of `10 ^ exponent` at or below `m` units, counted in `10 ^ exponent`. -/
def below (m : Nat) (exponent : Int) : Nat :=
  if 0 ≤ exponent then m / (unitsOfOne * tenTo exponent.toNat)
  else m * tenTo (-exponent).toNat / unitsOfOne

/-- Whether `m` units lie below the middle between `d` and `d + 1` steps of
`10 ^ exponent`. -/
def belowMiddle (m d : Nat) (exponent : Int) : Bool :=
  if 0 ≤ exponent then decide (2 * m < (2 * d + 1) * (unitsOfOne * tenTo exponent.toNat))
  else decide (2 * m * tenTo (-exponent).toNat < (2 * d + 1) * unitsOfOne)

def readsBack (x : Binary64) (d : Decimal) : Bool :=
  decide (Binary64.ofDecimal false d.digits d.exponent = x)

/-- The decimal of `n` digits that reads back as the positive number `x`: one of the
two neighbours of `x` on the grid of `n` digits, the nearer if both do, the upper of
two equally near. -/
def onGrid? (x : Binary64) (n : Nat) : Option Decimal :=
  let m := x.magnitude
  let exponent := leading m - n
  let d := below m exponent
  let lower : Decimal := ⟨d, exponent⟩
  let upper : Decimal := ⟨d + 1, exponent⟩
  match readsBack x lower, readsBack x upper with
  | true, true => some (if belowMiddle m d exponent then lower else upper)
  | true, false => some lower
  | false, true => some upper
  | false, false => none

/-- Moves trailing zeros into the exponent, at most `fuel` of them. -/
def strip : Nat → Decimal → Decimal
  | 0, d => d
  | fuel + 1, d =>
    if d.digits ≠ 0 ∧ d.digits % 10 = 0 then strip fuel ⟨d.digits / 10, d.exponent + 1⟩ else d

/-- The shortest decimal that reads back as the positive finite number `x`.
Seventeen digits always suffice. -/
def shortest (x : Binary64) : Decimal :=
  strip 17 (((List.range 17).findSome? fun n => onGrid? x (n + 1)).getD default)

/-! ### Writing them -/

/-- Where a format writes a number with a point and where with an exponent: by the
place of the leading digit, `k` for a number from `10 ^ (k - 1)` up to `10 ^ k`. -/
structure Layout where
  lowest : Int
  highest : Int
  nan : String
  infinity : String

/-- Text of a positive decimal. With a point there is always a digit on both sides
of it; with an exponent the point is left out beside a single digit. -/
def write (l : Layout) (d : Decimal) : String :=
  let text := Nat.toDigits 10 d.digits
  let place : Int := text.length + d.exponent
  if l.lowest ≤ place ∧ place ≤ l.highest then
    if place ≤ 0 then
      String.ofList ("0.".toList ++ List.replicate (-place).toNat '0' ++ text)
    else if text.length ≤ place then
      String.ofList (text ++ List.replicate (place.toNat - text.length) '0' ++ ".0".toList)
    else
      String.ofList (text.take place.toNat ++ '.' :: text.drop place.toNat)
  else
    let point := match text with
      | first :: rest => if rest.isEmpty then [first] else first :: '.' :: rest
      | [] => []
    String.ofList point ++ "e" ++ toString (place - 1)

end Decimal

/-- Text of any number in a layout; a zero keeps its sign. -/
def Binary64.text (l : Decimal.Layout) (x : Binary64) : String :=
  if x.isNaN then l.nan
  else
    let sign := if x.negative then "-" else ""
    if x.isInfinite then sign ++ l.infinity
    else if x.isZero then sign ++ "0.0"
    else sign ++ (Decimal.shortest x.abs).write l

end LiveBinding
