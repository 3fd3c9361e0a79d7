import KeyedStore.Key.Coercion

/-!
# Identifiers

A record is known by its identifier: its hash key, or hash and range joined by the separator of the
model. The separator is not escaped inside the hash, and an identifier is split at its first
occurrence.
-/
namespace KeyedStore

/-- Splits a text at the first occurrence of another one. -/
def splitAtFirst (separator : List Char) : List Char → Option (List Char × List Char)
  | [] => if separator.isEmpty then some ([], []) else none
  | c :: rest =>
    if separator.isPrefixOf (c :: rest) then some ([], (c :: rest).drop separator.length)
    else (splitAtFirst separator rest).map fun (before, after) => (c :: before, after)

namespace Schema

/-- The composite identifier of a hash and a range. -/
def encodeId (schema : Schema) (hash range : Json) : String :=
  hash.keyText ++ schema.separator ++ range.keyText

/-- The hash and the range that a composite identifier names. -/
def decodeId (schema : Schema) (id : String) : Except ValidationError (Json × Json) :=
  match schema.rangeKey with
  | none => .error (.invalidKey schema.idKey "model has no range key")
  | some rangeKey =>
    match splitAtFirst schema.separator.toList id.toList with
    | none =>
      .error (.invalidKey schema.idKey s!"`{id}` does not contain `{schema.separator}`")
    | some (hash, range) => do
      let hash ← schema.coerce schema.hashKey (.str (String.ofList hash))
      let range ← schema.coerce rangeKey (.str (String.ofList range))
      .ok (hash, range)

/-- The key attributes of the record with an identifier. -/
def keyForId (schema : Schema) (id : Json) : Except ValidationError Record :=
  if id.isNull then .error (.nullHash schema.name schema.hashKey)
  else
    match schema.isComposite, schema.rangeKey with
    | true, some rangeKey => do
      let (hash, range) ← schema.decodeId id.keyText
      .ok (Record.set [(schema.hashKey, hash)] rangeKey range)
    | _, _ => do
      .ok [(schema.hashKey, ← schema.coerce schema.hashKey id)]

/-- The key attributes of a stored record. -/
def keyOfRecord (schema : Schema) (record : Record) : Except ValidationError Record :=
  match record.get? schema.hashKey with
  | none => .error (.missingHash schema.name schema.hashKey)
  | some hash =>
    match schema.rangeKey with
    | none => .ok [(schema.hashKey, hash)]
    | some rangeKey =>
      match record.get? rangeKey with
      | none => .error (.missingRange schema.name rangeKey)
      | some range => .ok (Record.set [(schema.hashKey, hash)] rangeKey range)

/-- The hash key of a record to be written. A missing or null one is replaced by the fresh
identifier where there is one and the model generates its hash keys. -/
def hashToWrite (schema : Schema) (fresh : Option String) (record : Record) :
    Except ValidationError Json :=
  match record.get? schema.hashKey, fresh.filter fun _ => schema.generatesHash with
  | some .null, some id => .ok (.str id)
  | some .null, none => .error (.nullHash schema.name schema.hashKey)
  | some hash, _ => schema.coerce schema.hashKey hash
  | none, some id => .ok (.str id)
  | none, none => .error (.missingHash schema.name schema.hashKey)

/-- The range key of a record to be written. -/
def rangeToWrite (schema : Schema) (rangeKey : String) (record : Record) :
    Except ValidationError Json :=
  match record.get? rangeKey with
  | none | some .null => .error (.missingRange schema.name rangeKey)
  | some range => schema.coerce rangeKey range

/-- Brings the keys and dates of a record to the form in which they are written, and sets its
composite identifier. Answers the identifier, or why there is none, and the record as far as it
got. -/
def prepareWrite (schema : Schema) (fresh : Option String) (record : Record) :
    Except ValidationError Json × Record :=
  match schema.hashToWrite fresh record with
  | .error error => (.error error, record)
  | .ok hash =>
    let record := schema.coerceDates (record.set schema.hashKey hash)
    match schema.rangeKey with
    | none => (.ok hash, record)
    | some rangeKey =>
      match schema.rangeToWrite rangeKey record with
      | .error error => (.error error, record)
      | .ok range =>
        let record := record.set rangeKey range
        match schema.compositeKey with
        | none => (.ok hash, record)
        | some compositeKey =>
          let id := Json.str (schema.encodeId hash range)
          (.ok id, record.set compositeKey id)

end Schema

end KeyedStore
