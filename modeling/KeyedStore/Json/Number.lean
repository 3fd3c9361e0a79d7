import KeyedStore.Numeric.Shortest

/-!
# JSON numbers

A number is an integer that fits a signed or an unsigned 64-bit word, or a finite binary floating
point value. The two kinds have different texts: that of a floating point value always has a
fraction or an exponent.
-/
namespace KeyedStore

/-- A JSON number. -/
inductive Number where
  | int (n : Int) (inRange : -Nat.pow 2 63 ≤ n ∧ n < Nat.pow 2 64)
  | real (x : Binary64) (isFinite : x.isFinite = true)
  deriving DecidableEq

/-- The decimal text of an integer. -/
def integerText (n : Int) : List Char := Decimal.signed (decide (n < 0)) (naturalDigits n.natAbs)

namespace Number

/-- Floating point values are written positionally from `0.00001` up to sixteen digits before the
point. -/
def layout : Decimal.Layout := ⟨-5, 15⟩

/-- The text of a number. -/
def text : Number → List Char
  | .int n _ => integerText n
  | .real x _ => x.shortest.render layout

/-- An integer as a number, if it is in range. -/
def ofInt? (n : Int) : Option Number :=
  if h : -Nat.pow 2 63 ≤ n ∧ n < Nat.pow 2 64 then some (.int n h) else none

/-- A floating point value as a number, if it is finite. -/
def ofBinary64? (x : Binary64) : Option Number :=
  if h : x.isFinite = true then some (.real x h) else none

/-- The integer of the signed 64-bit range that a number is. -/
def int64? : Number → Option Int
  | .int n _ => if n < Nat.pow 2 63 then some n else none
  | .real .. => none

/-- The natural number that an integer is. -/
def nat? : Number → Option Nat
  | .int n _ => if 0 ≤ n then some n.toNat else none
  | .real .. => none

/-- The nearest floating point value. -/
def toBinary64 : Number → Binary64
  | .int n _ => .ofInt n
  | .real x _ => x

end Number

namespace Binary64

/-- The rounded product of two finite absolute values. -/
def scaleUp (x y : Binary64) : Binary64 :=
  ofRatio x.negative (x.numerator * y.numerator) (x.denominator * y.denominator)

/-- The rounded quotient of two finite absolute values. -/
def scaleDown (x y : Binary64) : Binary64 :=
  ofRatio x.negative (x.numerator * y.denominator) (x.denominator * y.numerator)

/-- The nearest value to a power of ten. -/
def powerOfTen (exponent : Nat) : Binary64 := ofRatio false (Nat.pow 10 exponent) 1

/-- Scales a finite value by a power of ten, one rounding for each factor up to `10 ^ 308`. -/
def scaleByTen (x : Binary64) (exponent : Int) : Nat → Binary64
  | 0 => x
  | steps + 1 =>
    if x.isZero then x
    else if 308 < exponent then infinity x.negative
    else if 0 ≤ exponent then x.scaleUp (powerOfTen exponent.toNat)
    else if -308 ≤ exponent then x.scaleDown (powerOfTen exponent.natAbs)
    else (x.scaleDown (powerOfTen 308)).scaleByTen (exponent + 308) steps

end Binary64

namespace Number

/-- The digits of a significand that fit a 64-bit word, as a number, and the count of the rest. -/
def significand (digits : List Char) (value : Nat) : Nat × Nat :=
  match digits with
  | [] => (value, 0)
  | c :: rest =>
    let next := 10 * value + digitValue c
    if next < Nat.pow 2 64 then significand rest next else (value, digits.length)

/-- Reads a floating point numeral: its leading digits as a 64-bit significand, which is rounded and
then scaled by the power of ten. -/
def readReal? (negative : Bool) (whole fraction : List Char) (exponent : Int) : Option Number :=
  let (value, dropped) := significand (whole ++ fraction) 0
  let unit := exponent - fraction.length + dropped
  ofBinary64? ((Binary64.ofRatio negative value 1).scaleByTen unit 4)

/-- Digits in front of a text, at least one. -/
def readDigits? (text : List Char) : Option (List Char × List Char) :=
  match text.takeWhile Char.isDigit with
  | [] => none
  | digits => some (digits, text.dropWhile Char.isDigit)

/-- Reads the number a text starts with. Without fraction and exponent it is an integer if it fits;
minus zero is a floating point value. -/
def read? (text : List Char) : Option (Number × List Char) := do
  let (negative, text) := match text with
    | '-' :: rest => (true, rest)
    | _ => (false, text)
  let (whole, text) ← match text with
    | '0' :: rest => some (['0'], rest)
    | _ => readDigits? text
  let (fraction, text) ← match text with
    | '.' :: rest => readDigits? rest
    | _ => some ([], text)
  let (exponent, text) ← match text with
    | c :: rest =>
      if c == 'e' || c == 'E' then do
        let (minus, rest) := splitSign rest
        let (digits, rest) ← readDigits? rest
        let value : Int := digitsValue digits
        some (some (if minus then -value else value), rest)
      else some (none, text)
    | [] => some (none, text)
  let number ←
    if fraction.isEmpty && exponent.isNone && !(negative && digitsValue whole == 0) then
      let value : Int := digitsValue whole
      (ofInt? (if negative then -value else value)).or (readReal? negative whole fraction 0)
    else readReal? negative whole fraction (exponent.getD 0)
  some (number, text)

end Number

end KeyedStore
