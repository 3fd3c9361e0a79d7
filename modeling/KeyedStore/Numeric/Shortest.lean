import KeyedStore.Numeric.Decimal

/-!
# Shortest decimal text

`Binary64.shortest` chooses the decimal with the fewest digits that reads back as the value it came
from: for one digit, two digits and so on it tries the two neighbours of the value on that decimal
grid. Of two that read back the nearer wins, and on a tie the even one. Seventeen digits always
suffice; the exact expansion stands behind them.
-/
namespace KeyedStore

/-- The greatest exponent of a power of ten that is at most a quotient of positive naturals. -/
def floorLog10 (num den : Nat) : Int :=
  if den ≤ num then (naturalDigits (num / den)).length - 1
  else
    let width := (naturalDigits (den / num)).length
    if num * Nat.pow 10 (width - 1) = den then -(width - 1 : Nat) else -(width : Int)

namespace Binary64

/-- A finite value as a decimal, digit for digit. -/
def exactDecimal (x : Binary64) : Decimal :=
  if 0 ≤ x.unitExponent then ⟨x.negative, x.numerator, 0⟩
  else ⟨x.negative, x.significand * Nat.pow 5 (-x.unitExponent).toNat, x.unitExponent⟩

/-- The nearer of the two neighbours of a finite value on the grid of multiples of
`10 ^ exponent` among those that read back, ties to even. -/
def nearestOnGrid? (x : Binary64) (exponent : Int) : Option Decimal :=
  let num := x.numerator * Nat.pow 10 (-exponent).toNat
  let den := x.denominator * Nat.pow 10 exponent.toNat
  let low := num / den
  let nearest := roundQuotient num den
  let other := if nearest = low then low + 1 else low
  [nearest, other].findSome? fun coefficient =>
    let d : Decimal := ⟨x.negative, coefficient, exponent⟩
    if ofDecimal d = x then some d else none

/-- The decimal with the fewest digits that reads back as a finite value. -/
def shortest (x : Binary64) : Decimal :=
  let top := floorLog10 x.numerator x.denominator
  ((List.range 17).findSome? fun (n : Nat) => x.nearestOnGrid? (top - n)).getD x.exactDecimal

end Binary64

namespace Decimal

/-- How decimals are laid out: the exponents written without an exponent part. -/
structure Layout where
  leastPlain : Int
  greatestPlain : Int

/-- Significant digits without trailing zeros, and the exponent of the first of them. -/
def scientific (d : Decimal) : List Char × Int :=
  let digits := naturalDigits d.coefficient
  ((digits.reverse.dropWhile (· == '0')).reverse, d.exponent + digits.length - 1)

def signed (negative : Bool) (text : List Char) : List Char :=
  if negative then '-' :: text else text

/-- Positional text, always with a fraction: the point stands after the digit of exponent zero. -/
def positional (digits : List Char) (exponent : Int) : List Char :=
  if exponent < 0 then
    "0.".toList ++ List.replicate (-exponent - 1).toNat '0' ++ digits
  else
    let width := exponent.toNat + 1
    let whole := digits.take width ++ List.replicate (width - digits.length) '0'
    match digits.drop width with
    | [] => whole ++ ".0".toList
    | fraction => whole ++ '.' :: fraction

/-- Text with an exponent part, whose sign is always written. -/
def exponential (digits : List Char) (exponent : Int) : List Char :=
  let mantissa := match digits with
    | [] => []
    | [d] => [d]
    | d :: rest => d :: '.' :: rest
  let sign := if exponent < 0 then '-' else '+'
  mantissa ++ 'e' :: sign :: naturalDigits exponent.natAbs

/-- The text of a decimal. -/
def render (layout : Layout) (d : Decimal) : List Char :=
  if d.coefficient = 0 then signed d.negative "0.0".toList
  else
    let (digits, exponent) := d.scientific
    signed d.negative <|
      if layout.leastPlain ≤ exponent && exponent ≤ layout.greatestPlain then
        positional digits exponent
      else exponential digits exponent

end Decimal

end KeyedStore
