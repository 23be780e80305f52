import LiveBinding.Number.Binary64
import LiveBinding.Text.Blank

/-! Numbers written in decimal.

`integer?` reads an optional sign and one or more digits. `float?` reads the same with
a point and an exponent, and the names of the infinities and of NaN in any case. Both
read the whole text or nothing; digits are the ten ASCII digits. -/
namespace LiveBinding.Numeral

/-! ### Digits -/

def digitValue (c : Char) : Nat := c.toNat - '0'.toNat

/-- The number a run of digits denotes. -/
def value (digits : List Char) : Nat := digits.foldl (fun n c => 10 * n + digitValue c) 0

def isDigits (cs : List Char) : Bool := !cs.isEmpty && cs.all Char.isDigit

/-- Splits a leading sign off; the flag says it is a minus. -/
def splitSign : List Char → Bool × List Char
  | '+' :: rest => (false, rest)
  | '-' :: rest => (true, rest)
  | cs => (false, cs)

/-! ### Integers -/

def integer? (cs : List Char) : Option Int :=
  let (negative, digits) := splitSign cs
  if isDigits digits then
    some (if negative then -(value digits : Int) else value digits)
  else none

/-- An integer of 64 bits. -/
def int64? (cs : List Char) : Option Int64 :=
  match integer? cs with
  | some i =>
    if Int64.minValue.toInt ≤ i ∧ i ≤ Int64.maxValue.toInt then some (Int64.ofInt i) else none
  | none => none

/-- A count below `2 ^ 64`; a minus sign is refused even before a zero. -/
def count? (cs : List Char) : Option Nat :=
  let (negative, digits) := splitSign cs
  if negative || !isDigits digits then none
  else if value digits < UInt64.size then some (value digits) else none

/-! ### Floating point -/

/-- What follows the mantissa: nothing, or an `e`, an optional sign and digits. -/
def exponent? : List Char → Option Int
  | [] => some 0
  | c :: rest => if c = 'e' ∨ c = 'E' then integer? rest else none

/-- Digits, then perhaps a point and digits, then perhaps an exponent. There is at
least one digit beside the point. -/
def mantissa? (negative : Bool) (cs : List Char) : Option Binary64 :=
  let whole := cs.takeWhile Char.isDigit
  let (fraction, rest) := match cs.dropWhile Char.isDigit with
    | '.' :: after => (after.takeWhile Char.isDigit, after.dropWhile Char.isDigit)
    | other => ([], other)
  if whole.isEmpty && fraction.isEmpty then none
  else (exponent? rest).map fun e =>
    Binary64.ofDecimal negative (value (whole ++ fraction)) (e - fraction.length)

def float? (cs : List Char) : Option Binary64 :=
  let (negative, body) := splitSign cs
  let name := String.ofList (body.map Char.toLower)
  if name = "inf" ∨ name = "infinity" then some (Binary64.infinity negative)
  else if name = "nan" then some Binary64.nan
  else mantissa? negative body

end LiveBinding.Numeral
