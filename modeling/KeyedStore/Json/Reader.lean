import KeyedStore.Json.Basic

/-!
# Reading JSON text

A recursive reader over characters. Each nested value costs one unit of fuel; a text is given as
much fuel as it has characters, more than its nesting can use up. When an object repeats a key,
the last value stands in the place of the first.
-/
namespace KeyedStore.Json

def skipBlank (text : List Char) : List Char :=
  text.dropWhile fun c => c == ' ' || c == '\t' || c == '\n' || c == '\r'

/-- The number written by four hexadecimal digits, and the rest of the text. -/
def readHex4? : List Char → Option (Nat × List Char)
  | a :: b :: c :: d :: rest => do
    let digit (c : Char) : Option Nat :=
      if c.isDigit then some (c.toNat - '0'.toNat)
      else if 'a' ≤ c ∧ c ≤ 'f' then some (c.toNat - 'a'.toNat + 10)
      else if 'A' ≤ c ∧ c ≤ 'F' then some (c.toNat - 'A'.toNat + 10)
      else none
    some ((((← digit a) * 16 + (← digit b)) * 16 + (← digit c)) * 16 + (← digit d), rest)
  | _ => none

/-- The character escaped by `\u` and four digits, or by two such escapes that form a pair. -/
def readUnicode? (text : List Char) : Option (Char × List Char) := do
  let (unit, rest) ← readHex4? text
  if 0xD800 ≤ unit ∧ unit < 0xDC00 then
    match rest with
    | '\\' :: 'u' :: rest => do
      let (low, rest) ← readHex4? rest
      if 0xDC00 ≤ low ∧ low < 0xE000 then
        some (Char.ofNat (0x10000 + (unit - 0xD800) * 0x400 + (low - 0xDC00)), rest)
      else none
    | _ => none
  else if 0xDC00 ≤ unit ∧ unit < 0xE000 then none
  else some (Char.ofNat unit, rest)

/-- The character escaped after a backslash. -/
def readEscape? : List Char → Option (Char × List Char)
  | '"' :: rest => some ('"', rest)
  | '\\' :: rest => some ('\\', rest)
  | '/' :: rest => some ('/', rest)
  | 'b' :: rest => some ('\x08', rest)
  | 'f' :: rest => some ('\x0c', rest)
  | 'n' :: rest => some ('\n', rest)
  | 'r' :: rest => some ('\r', rest)
  | 't' :: rest => some ('\t', rest)
  | 'u' :: rest => readUnicode? rest
  | _ => none

/-- The rest of a string literal after its opening quote, given the characters read, last first. -/
def readString? : Nat → List Char → List Char → Option (String × List Char)
  | 0, _, _ => none
  | _ + 1, _, [] => none
  | fuel + 1, done, c :: rest =>
    if c = '"' then some (String.ofList done.reverse, rest)
    else if c = '\\' then do
      let (escaped, rest) ← readEscape? rest
      readString? fuel (escaped :: done) rest
    else if c.toNat < 0x20 then none
    else readString? fuel (c :: done) rest

/-- A string literal. -/
def readLiteral? (fuel : Nat) : List Char → Option (String × List Char)
  | '"' :: rest => readString? fuel [] rest
  | _ => none

/-- The text after a fixed word. -/
def readWord? (word : String) (text : List Char) : Option (List Char) :=
  if word.toList.isPrefixOf text then some (text.drop word.length) else none

mutual

def readValue? : Nat → List Char → Option (Json × List Char)
  | 0, _ => none
  | fuel + 1, text =>
    match skipBlank text with
    | 'n' :: rest => do some (null, ← readWord? "ull" rest)
    | 't' :: rest => do some (bool true, ← readWord? "rue" rest)
    | 'f' :: rest => do some (bool false, ← readWord? "alse" rest)
    | '"' :: rest => do
      let (s, rest) ← readString? (fuel + 1) [] rest
      some (str s, rest)
    | '[' :: rest =>
      match skipBlank rest with
      | ']' :: rest => some (arr [], rest)
      | rest => do
        let (elements, rest) ← readElements? fuel rest
        some (arr elements, rest)
    | '\x7b' :: rest =>
      match skipBlank rest with
      | '\x7d' :: rest => some (obj [], rest)
      | rest => do
        let (entries, rest) ← readEntries? fuel [] rest
        some (obj entries, rest)
    | rest => do
      let (number, rest) ← Number.read? rest
      some (num number, rest)

def readElements? : Nat → List Char → Option (List Json × List Char)
  | 0, _ => none
  | fuel + 1, text => do
    let (element, rest) ← readValue? fuel text
    match skipBlank rest with
    | ',' :: rest => do
      let (elements, rest) ← readElements? fuel rest
      some (element :: elements, rest)
    | ']' :: rest => some ([element], rest)
    | _ => none

def readEntries? : Nat → Record → List Char → Option (Record × List Char)
  | 0, _, _ => none
  | fuel + 1, done, text => do
    let (key, rest) ← readLiteral? (fuel + 1) (skipBlank text)
    match skipBlank rest with
    | ':' :: rest => do
      let (value, rest) ← readValue? fuel rest
      let done := done.set key value
      match skipBlank rest with
      | ',' :: rest => readEntries? fuel done rest
      | '\x7d' :: rest => some (done, rest)
      | _ => none
    | _ => none

end

/-- The value that a text is, with white space around it. -/
def read? (text : String) : Option Json := do
  let chars := text.toList
  let (json, rest) ← readValue? (chars.length + 1) chars
  if (skipBlank rest).isEmpty then some json else none

end KeyedStore.Json
