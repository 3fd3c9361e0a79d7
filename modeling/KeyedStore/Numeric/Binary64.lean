/-!
# Binary floating point of 64 bits

A value is its sign and its magnitude: eleven exponent bits above fifty-two fraction bits, read as
one natural number. Magnitudes grow with the absolute value they stand for, so the orders below
compare magnitudes. `ofRatio` rounds a quotient to the nearest value, a tie to the even magnitude;
all arithmetic is exact arithmetic on naturals followed by that one rounding.
-/
namespace KeyedStore

/-- A binary floating point value, by its sign bit and its other sixty-three bits. -/
structure Binary64 where
  negative : Bool
  magnitude : Nat
  magnitude_lt : magnitude < Nat.pow 2 63 := by decide
  deriving DecidableEq

/-- The quotient rounded to the nearest natural, a tie to the even one. -/
def roundQuotient (num den : Nat) : Nat :=
  let quotient := num / den
  let twice := 2 * (num % den)
  if twice < den then quotient
  else if den < twice then quotient + 1
  else quotient + quotient % 2

/-- The greatest exponent of a power of two that is at most a quotient of positive naturals. -/
def floorLog2 (num den : Nat) : Int :=
  let guess : Int := (num.log2 : Int) - (den.log2 : Int)
  if den * Nat.pow 2 guess.toNat ≤ num * Nat.pow 2 (-guess).toNat then guess else guess - 1

namespace Binary64

/-- The magnitude of the infinities: all exponent bits set. Larger magnitudes are no numbers. -/
def infinityMagnitude : Nat := 0x7FF * Nat.pow 2 52

/-- The value of a magnitude, an infinity where the magnitude is too large for a finite one. -/
def ofMagnitude (negative : Bool) (magnitude : Nat) : Binary64 where
  negative := negative
  magnitude := min magnitude infinityMagnitude
  magnitude_lt := Nat.lt_of_le_of_lt (Nat.min_le_right ..) (by decide)

def zero (negative : Bool) : Binary64 := ⟨negative, 0, by decide⟩

def infinity (negative : Bool) : Binary64 := ⟨negative, infinityMagnitude, by decide⟩

/-- The quiet value that is not a number. -/
def nan (negative : Bool) : Binary64 := ⟨negative, 0xFFF * Nat.pow 2 51, by decide⟩

def isNaN (x : Binary64) : Bool := decide (infinityMagnitude < x.magnitude)

def isFinite (x : Binary64) : Bool := decide (x.magnitude < infinityMagnitude)

def isZero (x : Binary64) : Bool := x.magnitude == 0

/-- The absolute value of a finite value is `significand * 2 ^ unitExponent`. -/
def significand (x : Binary64) : Nat :=
  if x.magnitude / Nat.pow 2 52 = 0 then x.magnitude
  else x.magnitude % Nat.pow 2 52 + Nat.pow 2 52

/-- The exponent of the last significand bit of a finite value. -/
def unitExponent (x : Binary64) : Int :=
  (max (x.magnitude / Nat.pow 2 52) 1 : Nat) - 1075

/-- Numerator of the absolute value of a finite value. -/
def numerator (x : Binary64) : Nat := x.significand * Nat.pow 2 x.unitExponent.toNat

/-- Denominator of the absolute value of a finite value, a power of two. -/
def denominator (x : Binary64) : Nat := Nat.pow 2 (-x.unitExponent).toNat

/-- The nearest value to `num / den`, ties to even, with the given sign. -/
def ofRatio (negative : Bool) (num den : Nat) : Binary64 :=
  if num = 0 then zero negative
  else
    let exponent := max (floorLog2 num den + 1023) 1
    let unit := exponent - 1075
    let scaled := roundQuotient (num * Nat.pow 2 (-unit).toNat) (den * Nat.pow 2 unit.toNat)
    ofMagnitude negative ((exponent - 1).toNat * Nat.pow 2 52 + scaled)

def ofInt (n : Int) : Binary64 := ofRatio (decide (n < 0)) n.natAbs 1

/-- Position in the total order of all values, in which the sign decides first and `-0` comes
before `0`. -/
def totalKey (x : Binary64) : Int :=
  if x.negative then -1 - (x.magnitude : Int) else x.magnitude

/-- The total order: the negative values that are no numbers come first, the positive ones last. -/
def totalCompare (x y : Binary64) : Ordering := compare x.totalKey y.totalKey

/-- The total order tells all values apart. -/
theorem totalKey_inj {x y : Binary64} : x.totalKey = y.totalKey ↔ x = y := by
  obtain ⟨negative, magnitude, hx⟩ := x
  obtain ⟨negative', magnitude', hy⟩ := y
  unfold totalKey
  cases negative <;> cases negative' <;> simp <;> omega

theorem totalCompare_eq_eq_iff {x y : Binary64} : x.totalCompare y = .eq ↔ x = y := by
  rw [totalCompare, Std.compare_eq_iff_eq, totalKey_inj]

/-- Position in the numeric order, which has one zero. -/
def numericKey (x : Binary64) : Int :=
  if x.negative then -(x.magnitude : Int) else x.magnitude

/-- The numeric order; a value that is not a number is incomparable. -/
def compare? (x y : Binary64) : Option Ordering :=
  if x.isNaN || y.isNaN then none else some (compare x.numericKey y.numericKey)

/-- The natural number that a value equals, if it equals one. -/
def toNat? (x : Binary64) : Option Nat :=
  if x.isFinite && (x.isZero || !x.negative) && x.numerator % x.denominator == 0 then
    some (x.numerator / x.denominator)
  else none

end Binary64

end KeyedStore
