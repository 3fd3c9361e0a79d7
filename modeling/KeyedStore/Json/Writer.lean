import KeyedStore.Json.Basic

/-!
# Compact JSON text

Writes a JSON value without spaces, its objects in the order of their entries. Inside strings the
quote, the backslash and the control characters below the space are escaped; all others stand for
themselves, or are escaped as well where the text must be ASCII.
-/
namespace KeyedStore.Json

def hexDigit (n : Nat) : Char := Nat.digitChar (n % 16)

/-- The escape of a UTF-16 unit. -/
def escapeUnit (n : Nat) : List Char :=
  ['\\', 'u', hexDigit (n / 0x1000), hexDigit (n / 0x100), hexDigit (n / 0x10), hexDigit n]

/-- One character of a string literal. -/
def escapeChar (c : Char) : List Char :=
  if c = '"' then ['\\', '"']
  else if c = '\\' then ['\\', '\\']
  else if c = '\x08' then ['\\', 'b']
  else if c = '\t' then ['\\', 't']
  else if c = '\n' then ['\\', 'n']
  else if c = '\x0c' then ['\\', 'f']
  else if c = '\r' then ['\\', 'r']
  else if c.toNat < 0x20 then escapeUnit c.toNat
  else [c]

/-- A string literal. -/
def literal (s : String) : List Char := '"' :: s.toList.flatMap escapeChar ++ ['"']

mutual

/-- The text of a value, followed by `rest`. -/
def write : Json → List Char → List Char
  | null, rest => "null".toList ++ rest
  | bool true, rest => "true".toList ++ rest
  | bool false, rest => "false".toList ++ rest
  | num n, rest => n.text ++ rest
  | str s, rest => literal s ++ rest
  | arr elements, rest => '[' :: writeElements elements (']' :: rest)
  | obj entries, rest => '\x7b' :: writeEntries entries ('\x7d' :: rest)

def writeElements : List Json → List Char → List Char
  | [], rest => rest
  | [element], rest => write element rest
  | element :: elements, rest => write element (',' :: writeElements elements rest)

def writeEntries : List (String × Json) → List Char → List Char
  | [], rest => rest
  | [(key, value)], rest => literal key ++ ':' :: write value rest
  | (key, value) :: entries, rest =>
    literal key ++ ':' :: write value (',' :: writeEntries entries rest)

end

/-- The compact text of a value. -/
def compact (json : Json) : String := String.ofList (json.write [])

/-- A character in ASCII: one beyond it is escaped by its UTF-16 units. -/
def asciiChar (c : Char) : List Char :=
  if c.toNat < 0x80 then [c]
  else if c.toNat < 0x10000 then escapeUnit c.toNat
  else
    let offset := c.toNat - 0x10000
    escapeUnit (0xD800 + offset / 0x400) ++ escapeUnit (0xDC00 + offset % 0x400)

/-- The compact text of a value in ASCII. Characters beyond it stand only inside strings, where
an escape means the same. -/
def compactAscii (json : Json) : String := String.ofList ((json.write []).flatMap asciiChar)

end KeyedStore.Json
