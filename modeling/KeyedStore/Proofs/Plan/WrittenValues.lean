import KeyedStore.Proofs.Attribute.RoundTrip
import KeyedStore.Proofs.Key.Identifiers
import KeyedStore.Proofs.Plan.Verdict

/-!
# Written values

A record is brought to the form in which it is written by other functions than the values of a
filter. Values of the declared type of their attribute have two forms, that of keys and that of
other attributes, which differ for truth values only.
-/
namespace KeyedStore

/-- Whether a value has the declared type of its attribute. -/
inductive PropertyType.Describes : PropertyType → Json → Prop where
  | string (s : String) : Describes string (.str s)
  | number (n : Number) : Describes number (.num n)
  | boolean (b : Bool) : Describes boolean (.bool b)
  | millis (n : Number) : Describes date (.num n)
  | date (s : String) : Describes date (.str s)

/-- A number of JSON has a value that is a number. -/
theorem Number.isNaN_toBinary64 (n : Number) : n.toBinary64.isNaN = false := by
  have hle : n.toBinary64.magnitude ≤ Binary64.infinityMagnitude := by
    cases n with
    | real x isFinite => exact Nat.le_of_lt (of_decide_eq_true isFinite)
    | int n inRange =>
      show (Binary64.ofRatio _ _ 1).magnitude ≤ _
      unfold Binary64.ofRatio
      split
      case isTrue => exact Nat.zero_le _
      case isFalse => exact Nat.min_le_right ..
  exact decide_eq_false (Nat.not_lt.2 hle)

/-- A value that is stored equals itself. -/
theorem Json.equals_toAttribute_self (json : Json) :
    json.toAttribute.equals json.toAttribute = true := by
  cases json with
  | num n =>
    show ((AttributeValue.number _).compare? (.number _) == some .eq) = true
    simp [AttributeValue.compare?, Number.read?_text, Binary64.compare?, n.isNaN_toBinary64,
      Std.ReflCmp.compare_self]
  | null | bool _ | str _ | arr _ | obj _ => simp [toAttribute, AttributeValue.equals]

namespace Schema

variable {schema : Schema} {name : String} {type : PropertyType} {value key id : Json}
  {fresh : Option String} {record written : Record}

/-- The form that a value has in keys, given that it has the declared type of its attribute. -/
def keyForm (schema : Schema) (name : String) (value : Json) : Json :=
  if schema.type? name = some .boolean then .str value.keyText else schema.coerceDate name value

/-- Values of a filter get the form of keys where their attribute is in the key of the table or an
index. -/
theorem bind_of_describes (htype : schema.type? name = some type) (h : type.Describes value) :
    schema.bind name value = if schema.isIndexed name then schema.keyForm name value
      else schema.coerceDate name value := by
  unfold bind keyForm coerceDate
  cases h <;> simp [htype, coerceKey, Except.toOption]

theorem describes_coerceDate (htype : schema.type? name = some type) (h : type.Describes value) :
    type.Describes (schema.coerceDate name value) := by
  unfold coerceDate
  cases h with
  | string s => simpa [htype] using .string s
  | number n => simpa [htype] using .number n
  | boolean b => simpa [htype] using .boolean b
  | millis n => simpa [htype] using .millis n
  | date s =>
    simp only [htype]
    cases hdate : dateToJson? s with
    | none => exact .date s
    | some json =>
      obtain ⟨n, -, rfl⟩ := Option.map_eq_some_iff.1 hdate
      exact .millis n

/-- Keys get the form of keys. -/
theorem eq_keyForm_of_coerce (htype : schema.type? name = some type) (h : type.Describes value)
    (hkey : schema.coerce name value = .ok key) : key = schema.keyForm name value := by
  unfold coerce at hkey
  unfold keyForm coerceDate
  rw [htype] at hkey
  cases h with
  | string s | number n | boolean b | millis n =>
    cases hkey
    simp [htype]
  | date s =>
    simp only [htype, coerceKey] at hkey ⊢
    cases hdate : dateToJson? s with
    | none =>
      rw [hdate] at hkey
      cases hkey
    | some json =>
      rw [hdate] at hkey
      cases hkey
      simp

theorem keyForm_coerceDate (htype : schema.type? name = some type)
    (h : type.Describes value) :
    schema.keyForm name (schema.coerceDate name value) = schema.keyForm name value := by
  unfold keyForm
  rw [coerceDate_coerceDate]
  split
  case isTrue hboolean =>
    obtain rfl := Option.some.inj (htype.symm.trans hboolean)
    cases h
    simp [coerceDate, htype]
  case isFalse => rfl

/-- What has the form of keys keeps it. -/
theorem eq_keyForm_of_coerce_keyForm (htype : schema.type? name = some type)
    (h : type.Describes value)
    (hkey : schema.coerce name (schema.keyForm name value) = .ok key) :
    key = schema.keyForm name value := by
  by_cases hboolean : schema.type? name = some .boolean
  · rw [keyForm, if_pos hboolean] at hkey ⊢
    simp only [coerce, hboolean] at hkey
    cases hkey
    rfl
  · have hform : schema.keyForm name value = schema.coerceDate name value := if_neg hboolean
    rw [hform] at hkey
    rw [eq_keyForm_of_coerce htype (describes_coerceDate htype h) hkey, keyForm_coerceDate htype h]

/-- A hash value that is given is coerced. -/
theorem coerce_of_hashToWrite {hash : Json} (hvalue : record.get? schema.hashKey = some value)
    (hnull : value ≠ .null) (h : schema.hashToWrite fresh record = .ok hash) :
    schema.coerce schema.hashKey value = .ok hash := by
  unfold hashToWrite at h
  rw [hvalue] at h
  cases value <;> first | exact h | exact absurd rfl hnull

/-- A range value is coerced. -/
theorem coerce_of_rangeToWrite {rangeKey : String} {range : Json}
    (hvalue : record.get? rangeKey = some value)
    (h : schema.rangeToWrite rangeKey record = .ok range) :
    schema.coerce rangeKey value = .ok range := by
  unfold rangeToWrite at h
  rw [hvalue] at h
  cases value <;> first | exact h | cases h

/-- What a record to be written has before its range and its identifier are set. -/
theorem get?_coerceDates_hash {hash : Json} (hvalue : record.get? name = some value)
    (htype : schema.type? name = some type) (h : type.Describes value)
    (hhash : schema.hashToWrite fresh record = .ok hash) :
    (schema.coerceDates (record.set schema.hashKey hash)).get? name =
      some (if name = schema.hashKey then schema.keyForm name value
        else schema.coerceDate name value) := by
  rw [get?_coerceDates, Record.get?_set]
  split
  case isTrue hname =>
    subst hname
    have hnull : value ≠ .null := by
      rintro rfl
      cases h
    have hcoerce := coerce_of_hashToWrite hvalue hnull hhash
    rw [← eq_keyForm_of_coerce htype h hcoerce, Option.map_some,
      coerceDate_of_admits (admits_of_coerce hcoerce).1]
  case isFalse => rw [hvalue, Option.map_some]

/-- A key attribute is written in the form of keys, any other one as it is but for dates. -/
theorem get?_prepareWrite (hwrite : schema.prepareWrite fresh record = (.ok id, written))
    (hvalue : record.get? name = some value) (hid : schema.compositeKey ≠ some name)
    (htype : schema.type? name = some type) (h : type.Describes value) :
    written.get? name = some (if schema.isKey name then schema.keyForm name value
      else schema.coerceDate name value) := by
  obtain ⟨hash, hhash, hcases⟩ := prepareWrite_cases hwrite
  have hdated := get?_coerceDates_hash hvalue htype h hhash
  obtain ⟨hrangeKey, -, rfl⟩ | ⟨rangeKey, range, hrangeKey, hrange, hcases⟩ := hcases
  · simpa [isKey, hrangeKey] using hdated
  have hranged : (Record.set (schema.coerceDates (record.set schema.hashKey hash)) rangeKey
      range).get? name = some (if schema.isKey name then schema.keyForm name value
        else schema.coerceDate name value) := by
    rw [Record.get?_set]
    by_cases hname : name = rangeKey
    · subst hname
      have hcoerce := coerce_of_rangeToWrite hdated hrange
      have hform : range = schema.keyForm name value := by
        split at hcoerce
        case isTrue => exact eq_keyForm_of_coerce_keyForm htype h hcoerce
        case isFalse =>
          rw [eq_keyForm_of_coerce htype (describes_coerceDate htype h) hcoerce,
            keyForm_coerceDate htype h]
      simp [isKey, hrangeKey, hform]
    · simp [hname, hdated, isKey, hrangeKey, Ne.symm hname]
  obtain ⟨-, -, rfl⟩ | ⟨compositeKey, hcomposite, -, rfl⟩ := hcases
  · exact hranged
  · have hne : name ≠ compositeKey := by
      rintro rfl
      exact hid hcomposite
    rw [Record.get?_set, if_neg hne, hranged]

/-- The values of a filter and of a record have the same form, except for truth values that are in
the key of an index but not in that of the table. -/
theorem equals_bound_of_describes (htype : schema.type? name = some type)
    (h : type.Describes value) :
    (if schema.isKey name then schema.keyForm name value
      else schema.coerceDate name value).toAttribute.equals (schema.bound name value) =
        !(type = .boolean && schema.isIndexed name && !schema.isKey name) := by
  rw [bound, bind_of_describes htype h]
  cases hkey : schema.isKey name with
  | true =>
    have hindexed : schema.isIndexed name := by simp [isIndexed, hkey]
    simp [hindexed, Json.equals_toAttribute_self]
  | false =>
    cases hindexed : schema.isIndexed name with
    | false => simp [Json.equals_toAttribute_self]
    | true =>
      simp only [keyForm, htype, Bool.false_eq_true, if_false, if_true]
      cases h with
      | boolean b => simp [coerceDate, htype, Json.toAttribute, AttributeValue.equals]
      | string _ | number _ | millis _ | date _ => simp [Json.equals_toAttribute_self]

/-- A filter for a value that is written as it is given looks for items with an equal one. -/
theorem exists_filter_of_describes (schema : Schema) (name : String) (h : type.Describes value) :
    ∃ filter scan text e, Filter.ofJson (.obj [("where", .obj [(name, value)])]) = .ok filter ∧
      schema.compileScan filter = .ok scan ∧ scan.filter = some text ∧ Expr.parse text = .ok e ∧
      ∀ item, scan.bindings.evaluate item e =
        .ok ((item.get? name).any fun attr => attr.equals (schema.bound name value)) := by
  let filter : Filter := { conditions := [(name, .equals value)] }
  have hfilter : Filter.ofJson (.obj [("where", .obj [(name, value)])]) = .ok filter := by
    cases h <;> rfl
  obtain ⟨scan, hscan⟩ : ∃ scan, schema.compileScan filter = .ok scan := ⟨_, rfl⟩
  obtain ⟨text, e, htext, hparse, hevaluate⟩ :=
    exists_filter_of_compileScan hscan (List.cons_ne_nil _ _)
  refine ⟨filter, scan, text, e, hfilter, hscan, htext, hparse, fun item => ?_⟩
  rw [hevaluate]
  simp only [filter, Filter.verdict, Condition.verdict, ok_bind]
  split <;> simp_all

/-- What is written is found by a filter for the value that was given, except for truth values of
attributes that are in the key of an index but not in that of the table. -/
theorem evaluate_written (hwrite : schema.prepareWrite fresh record = (.ok id, written))
    (hvalue : record.get? name = some value) (hid : schema.compositeKey ≠ some name)
    (htype : schema.type? name = some type) (h : type.Describes value) :
    ∃ filter scan text e, Filter.ofJson (.obj [("where", .obj [(name, value)])]) = .ok filter ∧
      schema.compileScan filter = .ok scan ∧ scan.filter = some text ∧ Expr.parse text = .ok e ∧
      scan.bindings.evaluate (Record.toItem written) e =
        .ok (!(type = .boolean && schema.isIndexed name && !schema.isKey name)) := by
  obtain ⟨filter, scan, text, e, hfilter, hscan, htext, hparse, hevaluate⟩ :=
    exists_filter_of_describes schema name h
  refine ⟨filter, scan, text, e, hfilter, hscan, htext, hparse, ?_⟩
  rw [hevaluate, get?_toItem, get?_prepareWrite hwrite hvalue hid htype h]
  exact congrArg Except.ok (equals_bound_of_describes htype h)

/-- The properties of deliveries, with an index of those of a depot that are fragile or not. -/
def deliveryProperties : Json := .obj [
  ("id", .obj [("type", .str "String"), ("keyType", .str "hash")]),
  ("depot", .obj [("type", .str "String"),
    ("index", .obj [("global", .obj [("rangeKey", .str "fragile")])])]),
  ("due", .str "Date"), ("fragile", .str "Boolean")]

def deliveries : Schema where
  name := "Delivery"
  tableName := "Delivery"
  hashKey := "id"
  rangeKey := none
  compositeKey := none
  separator := defaultSeparator
  generatesHash := false
  types := [("depot", .string), ("due", .date), ("fragile", .boolean), ("id", .string)]
  localIndexes := []
  globalIndexes := [("depot", {
    name := "depotGlobalIndex"
    kind := .globalIndex
    hashKey := "depot"
    rangeKey := some "fragile"
    projection := .keysOnly
    throughput := some ⟨defaultReadCapacity, defaultWriteCapacity⟩ })]
  settings := {}

def delivery : Record :=
  [("id", .str "1"), ("due", .str "1970-01-01T00:00:01Z"), ("fragile", .bool true)]

theorem exists_deliveries : (do
    let definition ← ModelDefinition.ofJson "Delivery" deliveryProperties .null
    Registry.define [] definition) = .ok (deliveries, [("Delivery", deliveries)]) := rfl

theorem exists_prepareWrite_delivery :
    ∃ id written, deliveries.prepareWrite none delivery = (.ok id, written) := by
  obtain ⟨id, hid⟩ : ∃ id, (deliveries.prepareWrite none delivery).1 = .ok id := ⟨_, rfl⟩
  exact ⟨id, _, Prod.ext hid rfl⟩

/-- A delivery is found by the text of its date. -/
theorem evaluate_written_due : ∃ id written filter scan text e,
    deliveries.prepareWrite none delivery = (.ok id, written) ∧
    Filter.ofJson (.obj [("where", .obj [("due", .str "1970-01-01T00:00:01Z")])]) = .ok filter ∧
    deliveries.compileScan filter = .ok scan ∧ scan.filter = some text ∧
    Expr.parse text = .ok e ∧
    scan.bindings.evaluate (Record.toItem written) e = .ok true := by
  obtain ⟨id, written, hwrite⟩ := exists_prepareWrite_delivery
  obtain ⟨filter, scan, text, e, hfilter, hscan, htext, hparse, hevaluate⟩ :=
    evaluate_written hwrite (show delivery.get? "due" = _ from rfl) nofun rfl (.date _)
  exact ⟨id, written, filter, scan, text, e, hwrite, hfilter, hscan, htext, hparse, hevaluate⟩

/-- A fragile delivery is not found by that: the index of depots makes the filter ask for a text. -/
theorem evaluate_written_fragile : ∃ definition id written filter scan text e,
    ModelDefinition.ofJson "Delivery" deliveryProperties .null = .ok definition ∧
    Registry.define [] definition = .ok (deliveries, [("Delivery", deliveries)]) ∧
    deliveries.prepareWrite none delivery = (.ok id, written) ∧
    delivery.get? "fragile" = some (.bool true) ∧ deliveries.compositeKey = none ∧
    deliveries.type? "fragile" = some .boolean ∧
    Filter.ofJson (.obj [("where", .obj [("fragile", .bool true)])]) = .ok filter ∧
    deliveries.compileScan filter = .ok scan ∧ scan.filter = some text ∧
    Expr.parse text = .ok e ∧
    scan.bindings.evaluate (Record.toItem written) e = .ok false := by
  obtain ⟨definition, hread, hdefine⟩ := bind_eq_ok_iff.1 exists_deliveries
  obtain ⟨id, written, hwrite⟩ := exists_prepareWrite_delivery
  have htype : deliveries.type? "fragile" = some .boolean := rfl
  have hwritten : written.get? "fragile" = some (.bool true) :=
    get?_prepareWrite hwrite (show delivery.get? "fragile" = _ from rfl) nofun htype (.boolean true)
  obtain ⟨filter, scan, text, e, hfilter, hscan, htext, hparse, hevaluate⟩ :=
    exists_filter_of_describes deliveries "fragile" (.boolean true)
  refine ⟨definition, id, written, filter, scan, text, e, hread, hdefine, hwrite, rfl, rfl, htype,
    hfilter, hscan, htext, hparse, ?_⟩
  rw [hevaluate, get?_toItem, hwritten]
  exact congrArg Except.ok (equals_bound_of_describes htype (.boolean true))

end Schema

end KeyedStore
