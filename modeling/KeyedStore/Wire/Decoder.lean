import KeyedStore.Json.Basic

/-!
# Decoding from JSON

A decoder reads a value from JSON or says why it cannot. Objects with known fields are decoded from
their description, `Fields`: the entries of the object are checked in the order in which they stand,
so the first faulty one decides the error, and then the fields are looked up by name. Entries under
other names are ignored. An array stands for the fields in their order of declaration.
-/
namespace KeyedStore

/-- Why a JSON value cannot be decoded. -/
inductive DecodeError where
  | noTypeTag
  | severalTypeTags
  | unknownTypeTag (tag : String)
  /-- A missing field, or a value of another shape than the one expected. -/
  | malformed
  deriving DecidableEq

/-- The text of a decoding error, for the errors that have one of their own. -/
def DecodeError.message? : DecodeError → Option String
  | noTypeTag => some "attribute value has no type tag"
  | severalTypeTags => some "attribute value carries more than one type tag"
  | unknownTypeTag tag => some <|
      "unknown field `" ++ tag ++ "`, expected one of `S`, `N`, `B`, `SS`, " ++
      "`NS`, `BS`, `BOOL`, `NULL`, `L`, `M`"
  | malformed => none

/-- Reads a value of type `α` from JSON. -/
abbrev Decoder (α : Type) := Json → Except DecodeError α

namespace Decoder

variable {α β : Type}

/-- The value found, or a malformed one. -/
def ofOption : Option α → Except DecodeError α
  | some a => .ok a
  | none => .error .malformed

def string : Decoder String := fun json => ofOption json.str?

def bool : Decoder Bool := fun json => ofOption json.bool?

/-- A signed 64-bit integer. -/
def int64 : Decoder Int := fun json => ofOption json.int64?

/-- A signed 32-bit integer. -/
def int32 : Decoder Int := fun json =>
  ofOption (json.int64?.filter fun n => -Nat.pow 2 31 ≤ n && n < Nat.pow 2 31)

/-- A natural number below a bound. -/
def natBelow (bound : Nat) : Decoder Nat := fun json =>
  ofOption (json.nat?.filter (· < bound))

/-- A floating point value; integers are rounded to one. -/
def binary64 : Decoder Binary64 := fun json =>
  match json with
  | .num n => .ok n.toBinary64
  | _ => .error .malformed

/-- A list whose elements are decoded in order. -/
def list (element : Decoder α) : Decoder (List α) := fun json => do
  (← ofOption json.arr?).mapM element

/-- One of several literals: the text, or an object with the text as its only key and null. -/
def literal (values : List (String × α)) : Decoder α := fun json =>
  match json with
  | .str text => ofOption (values.lookup text)
  | .obj [(text, .null)] => ofOption (values.lookup text)
  | _ => .error .malformed

/-- Null, or a value. -/
def nullable (value : Decoder α) : Decoder (Option α) := fun json =>
  match json with
  | .null => .ok none
  | json => some <$> value json

end Decoder

/-- The name of a field, the check its value must pass, and whether an array may end before it. -/
structure FieldCheck where
  name : String
  check : Decoder Unit
  mayBeCut : Bool

/-- The fields of an object, and the value built from them. -/
structure Fields (α : Type) where
  checks : List FieldCheck
  build : Record → Except DecodeError α

namespace Fields

variable {α β : Type}

/-- A field that must be present. -/
def required (name : String) (value : Decoder α) : Fields α where
  checks := [⟨name, fun json => (fun _ => ()) <$> value json, false⟩]
  build record := match record.get? name with
    | some json => value json
    | none => .error .malformed

/-- A field that may be absent or null. -/
def optional (name : String) (value : Decoder α) : Fields (Option α) where
  checks := [⟨name, fun json => (fun _ => ()) <$> Decoder.nullable value json, false⟩]
  build record := match record.get? name with
    | some json => Decoder.nullable value json
    | none => .ok none

/-- A field with a value for when it is absent. -/
def withDefault (name : String) (value : Decoder α) (default : α) : Fields α where
  checks := [⟨name, fun json => (fun _ => ()) <$> value json, true⟩]
  build record := match record.get? name with
    | some json => value json
    | none => .ok default

/-- The same value from no fields at all. -/
def pure (a : α) : Fields α := ⟨[], fun _ => .ok a⟩

/-- The fields of both, and the function of the first applied to the value of the second. -/
def seq (f : Fields (α → β)) (x : Fields α) : Fields β where
  checks := f.checks ++ x.checks
  build record := do
    let g ← f.build record
    let a ← x.build record
    .ok (g a)

instance : Applicative Fields where
  pure := pure
  seq f x := seq f (x ())

/-- Checks the entries of an object in order. -/
def checkEntries (checks : List FieldCheck) : Record → Except DecodeError Unit
  | [] => .ok ()
  | (name, json) :: rest =>
    match checks.find? (·.name == name) with
    | some field => do
      field.check json
      checkEntries checks rest
    | none => checkEntries checks rest

/-- Pairs the elements of an array with the fields in order. -/
def nameElements : List FieldCheck → List Json → Except DecodeError Record
  | [], [] => .ok []
  | [], _ :: _ => .error .malformed
  | fields, [] => if fields.all (·.mayBeCut) then .ok [] else .error .malformed
  | field :: fields, json :: rest => do
    field.check json
    let named ← nameElements fields rest
    .ok ((field.name, json) :: named)

/-- Decodes an object, or an array of its fields. -/
def decode (fields : Fields α) : Decoder α
  | .obj entries => do
    checkEntries fields.checks entries
    fields.build entries
  | .arr elements => do
    fields.build (← nameElements fields.checks elements)
  | _ => .error .malformed

end Fields

/-- An entry of an object that is written only if there is a value. -/
def Json.optionalEntry (name : String) (value : Option Json) : Option (String × Json) :=
  value.map fun json => (name, json)

/-- An entry of an object that is written only if the list is not empty. -/
def Json.listEntry (name : String) (elements : List Json) : Option (String × Json) :=
  if elements.isEmpty then none else some (name, .arr elements)

/-- The object of the entries that are there. -/
def Json.ofEntries (entries : List (Option (String × Json))) : Json := .obj (entries.filterMap id)

end KeyedStore
