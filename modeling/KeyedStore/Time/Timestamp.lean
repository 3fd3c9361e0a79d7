import KeyedStore.Numeric.Decimal

/-!
# Timestamps

Reads a date and a time of day with a time zone offset as milliseconds since 1970. The date is a
year of four digits, a month and a day; the time is hours, minutes, seconds and an optional
fraction. The sixtieth second of a minute is a leap second, which the clock counts within the
second before it.
-/
namespace KeyedStore.Timestamp

/-- Whether a year has a twenty-ninth of February. -/
def isLeapYear (year : Nat) : Bool := year % 4 == 0 && (year % 100 != 0 || year % 400 == 0)

/-- The length of a month. -/
def daysInMonth (year month : Nat) : Nat :=
  match month with
  | 2 => if isLeapYear year then 29 else 28
  | 4 | 6 | 9 | 11 => 30
  | _ => 31

/-- Days from the first day of the year zero to the first day of a year. -/
def daysBeforeYear (year : Nat) : Nat :=
  year * 365 + (year + 3) / 4 - (year + 99) / 100 + (year + 399) / 400

/-- Days from the first day of a year to the first day of a month. -/
def daysBeforeMonth (year month : Nat) : Nat :=
  ((List.range (month - 1)).map fun m => daysInMonth year (m + 1)).foldr (· + ·) 0

/-- Days since the first of January 1970. -/
def dayNumber (year month day : Nat) : Int :=
  (daysBeforeYear year + daysBeforeMonth year month + (day - 1) : Nat) - (daysBeforeYear 1970 : Nat)

/-- The number written by exactly so many digits, and the rest of the text. -/
def readDigits? (count : Nat) (text : List Char) : Option (Nat × List Char) :=
  let digits := text.take count
  if digits.length = count && digits.all Char.isDigit then
    some (digitsValue digits, text.drop count)
  else none

/-- The text after one of several characters. -/
def readChar? (allowed : List Char) : List Char → Option (List Char)
  | c :: rest => if allowed.contains c then some rest else none
  | [] => none

/-- The milliseconds of an optional fraction of a second; its tenth and later digits are ignored. -/
def readFraction? : List Char → Option (Nat × List Char)
  | '.' :: rest =>
    match rest.takeWhile Char.isDigit with
    | [] => none
    | digits =>
      let nanos := (digits ++ List.replicate (9 - digits.length) '0').take 9
      some (digitsValue nanos / 1000000, rest.dropWhile Char.isDigit)
  | text => some (0, text)

/-- The seconds by which the local time is ahead, to the end of the text. -/
def readOffset? : List Char → Option Int
  | ['Z'] | ['z'] => some 0
  | sign :: rest => do
    let negative ←
      if sign = '+' then some false
      else if sign = '-' ∨ sign = '\u2212' then some true
      else none
    let (hours, rest) ← readDigits? 2 rest
    let (minutes, rest) ← readDigits? 2 (← readChar? [':'] rest)
    if hours < 24 ∧ minutes < 60 ∧ rest = [] then
      let seconds : Int := (hours * 60 + minutes) * 60
      some (if negative then -seconds else seconds)
    else none
  | [] => none

/-- The milliseconds since 1970 of a timestamp. -/
def read? (text : List Char) : Option Int := do
  let (year, rest) ← readDigits? 4 text
  let (month, rest) ← readDigits? 2 (← readChar? ['-'] rest)
  let (day, rest) ← readDigits? 2 (← readChar? ['-'] rest)
  let (hour, rest) ← readDigits? 2 (← readChar? ['T', 't', ' '] rest)
  let (minute, rest) ← readDigits? 2 (← readChar? [':'] rest)
  let (second, rest) ← readDigits? 2 (← readChar? [':'] rest)
  let (fraction, rest) ← readFraction? rest
  let offset ← readOffset? rest
  if 1 ≤ month ∧ month ≤ 12 ∧ 1 ≤ day ∧ day ≤ daysInMonth year month ∧ hour < 24 ∧ minute < 60 ∧
      second ≤ 60 then
    let leap := if second = 60 then 1000 else 0
    let time : Nat := (hour * 60 + minute) * 60 + min second 59
    some ((dayNumber year month day * 86400 + time - offset) * 1000 + leap + fraction)
  else none

end KeyedStore.Timestamp
