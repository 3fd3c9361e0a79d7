import KeyedStore.Numeric.Binary64

/-!
# Decimal text

Reads decimal numerals: an optional sign, digits with an optional point among or beside them, and an
optional exponent. `Binary64.read?` also knows the words for infinity and for what is not a number,
in any letter case, and rounds what it read to the nearest value. `readInteger?` reads plain
integers.
-/
namespace KeyedStore

/-- The number `± coefficient * 10 ^ exponent`. -/
structure Decimal where
  negative : Bool
  coefficient : Nat
  exponent : Int
  deriving DecidableEq

/-- Whether a leading minus is present, and the text after an optional sign. -/
def splitSign : List Char → Bool × List Char
  | '-' :: rest => (true, rest)
  | '+' :: rest => (false, rest)
  | text => (false, text)

def digitValue (c : Char) : Nat := c.toNat - '0'.toNat

/-- The number that a list of decimal digits stands for. -/
def digitsValue (digits : List Char) : Nat :=
  digits.foldl (fun n c => 10 * n + digitValue c) 0

/-- The decimal digits of a natural number, most significant first. -/
def naturalDigits (n : Nat) : List Char := Nat.toDigits 10 n

/-- A nonempty list of digits and nothing else. -/
def isDigits (text : List Char) : Bool := !text.isEmpty && text.all Char.isDigit

/-- An integer written as an optional sign and digits. -/
def readInteger? (text : List Char) : Option Int :=
  let (negative, digits) := splitSign text
  if isDigits digits then
    some (if negative then -(digitsValue digits : Int) else digitsValue digits)
  else none

/-- An integer of the signed 64-bit range. -/
def readInt64? (text : List Char) : Option Int :=
  (readInteger? text).filter fun n => -Nat.pow 2 63 ≤ n && n < Nat.pow 2 63

/-- A natural number below the bound, written without a minus. -/
def readNatBelow? (bound : Nat) (text : List Char) : Option Nat :=
  let digits := match text with
    | '+' :: rest => rest
    | _ => text
  if isDigits digits && digitsValue digits < bound then some (digitsValue digits) else none

namespace Decimal

/-- The exponent part of a numeral: nothing, or the letter, an optional sign and digits. -/
def readExponent? : List Char → Option Int
  | [] => some 0
  | c :: rest => if c == 'e' || c == 'E' then readInteger? rest else none

/-- A numeral: digits on at least one side of an optional point, and an optional exponent. -/
def read? (text : List Char) : Option Decimal :=
  let (negative, text) := splitSign text
  let whole := text.takeWhile Char.isDigit
  let (fraction, rest) := match text.dropWhile Char.isDigit with
    | '.' :: rest => (rest.takeWhile Char.isDigit, rest.dropWhile Char.isDigit)
    | rest => ([], rest)
  if whole.isEmpty && fraction.isEmpty then none
  else (readExponent? rest).map fun exponent =>
    ⟨negative, digitsValue (whole ++ fraction), exponent - fraction.length⟩

end Decimal

namespace Binary64

/-- The nearest value to a decimal. Exponents far outside the range of the format are settled
without computing the power of ten. -/
def ofDecimal (d : Decimal) : Binary64 :=
  let scale := d.exponent + (naturalDigits d.coefficient).length
  if d.coefficient = 0 || scale < -400 then zero d.negative
  else if 400 < scale then infinity d.negative
  else ofRatio d.negative (d.coefficient * Nat.pow 10 d.exponent.toNat)
    (Nat.pow 10 (-d.exponent).toNat)

/-- The value a numeral or a word stands for. -/
def read? (text : List Char) : Option Binary64 :=
  let (negative, word) := splitSign text
  match String.ofList (word.map Char.toLower) with
  | "inf" | "infinity" => some (infinity negative)
  | "nan" => some (nan negative)
  | _ => (Decimal.read? text).map ofDecimal

end Binary64

end KeyedStore
