import KeyedStore.Attribute.Json
import KeyedStore.Memory.KeyValue
import KeyedStore.Proofs.Json.NumberText
import KeyedStore.Proofs.OrderedMap

/-!
# Stored data

Data that is stored and read again is the same data. Numbers come back from their decimal text, and
an object comes back with the same value under each key, though in the order of its keys.
-/
namespace KeyedStore

/-- Whether two values are the same data. The order of the keys of an object does not matter. -/
inductive Json.Same : Json → Json → Prop where
  | null : Same .null .null
  | bool (b : Bool) : Same (.bool b) (.bool b)
  | num (n : Number) : Same (.num n) (.num n)
  | str (s : String) : Same (.str s) (.str s)
  | arr {elements others : List Json} (h : List.Forall₂ Same elements others) :
      Same (.arr elements) (.arr others)
  | obj {entries others : List (String × Json)}
      (h : ∀ key, Option.Rel Same (Record.get? entries key) (Record.get? others key)) :
      Same (.obj entries) (.obj others)

/-- A number is read back from its text. -/
theorem numberToJson_text (n : Number) : numberToJson (String.ofList n.text) = .num n := by
  unfold numberToJson
  rw [String.toList_ofList]
  cases n with
  | int n inRange =>
    have hinteger := Number.readInteger_text_int inRange
    have hsome : Number.ofInt? n = some (.int n inRange) := dif_pos inRange
    rw [Number.text]
    simp only [hinteger, Option.bind_some, hsome, Option.some_or]
  | real x h =>
    have hint := Number.readInt64?_text (.real x h)
    have hreal : Binary64.read? (Number.text (.real x h)) = some x :=
      Binary64.read?_render_shortest h _
    have hsome : Number.ofBinary64? x = some (.real x h) := dif_pos h
    simp [hint, Number.int64?, Number.readNatBelow?_text_real, hreal, hsome]

/-- A key that is stored is read again as it is. -/
theorem toJson_toAttribute_of_ofAttribute {name : String} {json : Json} {value : KeyValue}
    (h : KeyValue.ofAttribute name json.toAttribute = .ok value) :
    json.toAttribute.toJson = json := by
  cases json with
  | num n => exact numberToJson_text n
  | str s => rfl
  | null | bool _ | arr _ | obj _ => cases h

section Entries

theorem get?_toItem (record : Record) (name : String) :
    OrderedMap.get? (Record.toItem record) name = (record.get? name).map Json.toAttribute := by
  induction record with
  | nil => rfl
  | cons entry rest ih =>
    obtain ⟨key, json⟩ := entry
    rw [Record.toItem, OrderedMap.get?_insert, ih]
    by_cases h : key = name
    · simp [Record.get?, h, Std.ReflCmp.compare_self]
    · have hne : compare name key ≠ .eq := fun heq => h (Std.LawfulEqCmp.eq_of_compare heq).symm
      simp [Record.get?, h, hne]

theorem get?_toRecord (item : Item) (name : String) :
    Record.get? (Item.toRecord item) name = (item.get? name).map AttributeValue.toJson := by
  induction item with
  | nil => rfl
  | cons entry rest ih =>
    obtain ⟨key, value⟩ := entry
    by_cases h : key = name
    · simp [Item.toRecord, Record.get?, OrderedMap.get?, h, Std.ReflCmp.compare_self]
    · have hne : compare name key ≠ .eq := fun heq => h (Std.LawfulEqCmp.eq_of_compare heq).symm
      simpa [Item.toRecord, Record.get?, OrderedMap.get?, h, hne] using ih

end Entries

mutual

/-- A value that is stored comes back. -/
theorem Json.same_toJson_toAttribute : ∀ json : Json, Json.Same json.toAttribute.toJson json
  | .null => .null
  | .bool b => .bool b
  | .num n => by
    rw [Json.toAttribute, AttributeValue.toJson, numberToJson_text]
    exact .num n
  | .str s => .str s
  | .arr elements => .arr (forall₂_same_elements elements)
  | .obj entries => by
    refine .obj fun key => ?_
    rw [get?_toRecord, get?_toItem]
    cases hvalue : Record.get? entries key with
    | none => exact .none
    | some value =>
      obtain ⟨entry, hentry, rfl⟩ := Option.map_eq_some_iff.1 hvalue
      exact .some (same_of_mem_entries entries entry (List.mem_of_find?_eq_some hentry))

theorem forall₂_same_elements : ∀ elements : List Json,
    List.Forall₂ Json.Same (elementsToJson (elementsToAttributes elements)) elements
  | [] => .nil
  | element :: rest => .cons (Json.same_toJson_toAttribute element) (forall₂_same_elements rest)

theorem same_of_mem_entries : ∀ entries : List (String × Json), ∀ entry ∈ entries,
    Json.Same entry.2.toAttribute.toJson entry.2
  | [], _, h => by cases h
  | (_, json) :: rest, entry, h => by
    rcases List.mem_cons.1 h with rfl | hmem
    · exact Json.same_toJson_toAttribute json
    · exact same_of_mem_entries rest entry hmem

end

/-- A record that is stored comes back with the same values. -/
theorem Record.same_toRecord_toItem (record : Record) :
    Json.Same (.obj (Item.toRecord (Record.toItem record))) (.obj record) :=
  Json.same_toJson_toAttribute (.obj record)

end KeyedStore
