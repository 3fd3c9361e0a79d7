import KeyedStore.Key.Coercion
import KeyedStore.Proofs.Except
import KeyedStore.Proofs.Json.NumberText

/-!
# Coerced key values

A coerced key value stays as it is when it is coerced again, and the text of one is coerced back to
it: any text, and those numbers that are integers of the signed 64-bit range.
-/
namespace KeyedStore

section Numbers

variable {n : Number} {text : List Char}

theorem isBlank_of_numeral {c : Char} (h : c.isDigit ∨ c ∈ ['.', 'e', '+', '-']) :
    Text.isBlank c = false := by
  rcases h with h | h
  · simp only [Char.isDigit, Bool.and_eq_true, decide_eq_true_eq] at h
    have hlow : 48 ≤ c.toNat := UInt32.le_iff_toNat_le.1 h.1
    have hhigh : c.toNat ≤ 57 := UInt32.le_iff_toNat_le.1 h.2
    simp only [Text.isBlank, Text.blankRanges, Text.Ranges.has, List.any_cons, List.any_nil]
    simp
    omega
  · simp only [List.mem_cons, List.not_mem_nil, or_false] at h
    rcases h with rfl | rfl | rfl | rfl <;> decide

theorem trim_eq_self (h : ∀ c ∈ text, Text.isBlank c = false) : Text.trim text = text := by
  have hdrop {text : List Char} (h : ∀ c ∈ text, Text.isBlank c = false) :
      text.dropWhile Text.isBlank = text := by
    cases text with
    | nil => rfl
    | cons c rest => rw [List.dropWhile_cons_of_neg (by simp [h c])]
  unfold Text.trim
  rw [hdrop h, hdrop fun c hc => h c (List.mem_reverse.1 hc), List.reverse_reverse]

/-- There is no white space in the text of a number. -/
theorem trim_text (n : Number) : Text.trim n.text = n.text :=
  trim_eq_self fun _ hc => isBlank_of_numeral (Number.isDigit_or_mem_of_mem_text hc)

/-- A timestamp starts with a year of four digits and a dash. -/
theorem Timestamp.exists_year_of_read? {millis : Int} (h : Timestamp.read? text = some millis) :
    ∃ a b c d rest, text = a :: b :: c :: d :: '-' :: rest ∧ a.isDigit ∧ b.isDigit := by
  obtain ⟨⟨year, rest⟩, hyear, h⟩ := Option.bind_eq_some_iff.1 h
  obtain ⟨after, hdash, -⟩ := Option.bind_eq_some_iff.1 h
  have hdigits : rest = text.drop 4 ∧ (text.take 4).length = 4 ∧
      (text.take 4).all Char.isDigit := by
    unfold readDigits? at hyear
    simp only at hyear
    split at hyear
    case isTrue hdigits =>
      cases hyear
      simpa using hdigits
    case isFalse => cases hyear
  obtain ⟨rfl, hlength, hall⟩ := hdigits
  obtain ⟨a, b, c, d, tail, rfl⟩ : ∃ a b c d tail, text = a :: b :: c :: d :: tail := by
    match text, hlength with
    | a :: b :: c :: d :: tail, _ => exact ⟨a, b, c, d, tail, rfl⟩
  cases tail with
  | nil => cases hdash
  | cons mark rest =>
    have hpair : a.isDigit ∧ b.isDigit ∧ c.isDigit ∧ d.isDigit := by simpa using hall
    obtain rfl : mark = '-' := by
      by_contra hne
      simp [readChar?, hne] at hdash
    exact ⟨a, b, c, d, rest, rfl, hpair.1, hpair.2.1⟩

/-- A number is no timestamp. -/
theorem Timestamp.read?_text (n : Number) : Timestamp.read? n.text = none := by
  refine Option.eq_none_iff_forall_not_mem.2 fun millis hread => ?_
  obtain ⟨a, b, c, d, rest, htext, ha, hb⟩ := Timestamp.exists_year_of_read? hread
  exact Number.dash_not_mem_text htext ha hb (by simp)

/-- A number is read back from its text as a key if it is an integer of the signed 64-bit range. -/
theorem toJson?_text (n : Number) :
    integerToJson? (String.ofList n.text) = n.int64?.map (fun _ => .num n) ∧
      dateToJson? (String.ofList n.text) = n.int64?.map fun _ => .num n := by
  have hsome : (n.int64?.bind Number.ofInt?).map Json.num = n.int64?.map fun _ => .num n := by
    cases n with
    | real x hx => rfl
    | int n inRange =>
      have hof : Number.ofInt? n = some (.int n inRange) := dif_pos inRange
      rw [Number.int64?]
      split <;> simp [hof]
  constructor
  · simp [integerToJson?, trim_text, Number.readInt64?_text, hsome]
  · simp [dateToJson?, dateMillis?, trim_text, Timestamp.read?_text, Number.readInt64?_text, hsome]

end Numbers

namespace Json

theorem keyText_num (n : Number) : (Json.num n).keyText = String.ofList n.text := by
  simp [keyText, compact, write]

end Json

/-- Whether a value has the form in which an attribute of a type is written as a key. -/
def PropertyType.admits : PropertyType → Json → Bool
  | _, .null | .json, _ => true
  | .number, .num _ | .date, .num _ => true
  | .string, .str _ | .boolean, .str _ => true
  | _, _ => false

section Values

variable {name : String} {type : PropertyType} {raw value : Json}

/-- What has the form of a key is left as it is. -/
theorem coerceKey_of_admits (h : type.admits value) : coerceKey name type value = .ok value := by
  cases type <;> cases value <;> first | rfl | cases h

/-- A text that is read as a number makes a number. -/
theorem exists_num_of_read {found : Option Number} {error : ValidationError}
    (h : ((found.map Json.num).map Except.ok).getD (.error error) = Except.ok value) :
    ∃ n, value = .num n := by
  cases found with
  | none => cases h
  | some n =>
    cases h
    exact ⟨n, rfl⟩

/-- Coercion gives values the form of keys, and makes null of nothing else. -/
theorem admits_of_coerceKey (h : coerceKey name type raw = .ok value) :
    type.admits value ∧ value.isNull = raw.isNull := by
  cases raw with
  | str s =>
    cases type with
    | number | date =>
      obtain ⟨n, rfl⟩ := exists_num_of_read h
      exact ⟨rfl, rfl⟩
    | string | boolean | json =>
      cases h
      exact ⟨rfl, rfl⟩
  | null | bool _ | num _ | arr _ | obj _ =>
    cases type <;> cases h <;> exact ⟨rfl, rfl⟩

end Values

namespace Schema

variable {schema : Schema} {name : String} {raw value : Json}

/-- Whether a value has the form in which an attribute is written as a key. -/
def Admits (schema : Schema) (name : String) (value : Json) : Prop :=
  ∀ type, schema.type? name = some type → type.admits value

theorem coerce_of_admits (h : schema.Admits name value) : schema.coerce name value = .ok value := by
  unfold coerce
  cases htype : schema.type? name with
  | none => rfl
  | some type => exact coerceKey_of_admits (h type htype)

theorem admits_of_coerce (h : schema.coerce name raw = .ok value) :
    schema.Admits name value ∧ value.isNull = raw.isNull := by
  unfold coerce at h
  cases htype : schema.type? name with
  | none =>
    rw [htype] at h
    cases h
    exact ⟨by simp [Admits, htype], rfl⟩
  | some type =>
    rw [htype] at h
    obtain ⟨hadmits, hnull⟩ := admits_of_coerceKey h
    exact ⟨fun other hother => by cases htype.symm.trans hother; exact hadmits, hnull⟩

/-- The text of a key value is coerced back to it, or to nothing if it is a number that is no
integer of the signed 64-bit range. -/
theorem coerce_keyText {type : PropertyType} (htype : schema.type? name = some type)
    (hscalar : type.scalar?.isSome) (h : schema.Admits name value) (hnull : value.isNull = false) :
    ((∀ n, value = .num n → n.int64?.isSome) →
      schema.coerce name (.str value.keyText) = .ok value) ∧
    ((∃ other, schema.coerce name (.str value.keyText) = .ok other) →
      ∀ n, value = .num n → n.int64?.isSome) := by
  have hadmits := h type htype
  unfold coerce
  rw [htype]
  cases type with
  | json => cases hscalar
  | string | boolean =>
    cases value with
    | str s => exact ⟨fun _ => rfl, by simp⟩
    | null => cases hnull
    | num _ | bool _ | arr _ | obj _ => cases hadmits
  | number | date =>
    cases value with
    | num n =>
      obtain ⟨hnumber, hdate⟩ := toJson?_text n
      cases hint : n.int64? with
      | some i =>
        refine ⟨fun _ => by simp [Json.keyText_num, coerceKey, hnumber, hdate, hint], ?_⟩
        rintro - _ ⟨⟩
        simp [hint]
      | none =>
        constructor
        · intro hall
          have hsome := hall n rfl
          simp [hint] at hsome
        · rintro ⟨other, hother⟩
          simp [Json.keyText_num, coerceKey, hnumber, hdate, hint] at hother
    | null => cases hnull
    | str _ | bool _ | arr _ | obj _ => cases hadmits

/-- The form in which a value of a record is written: a text that is a date as milliseconds. -/
def coerceDate (schema : Schema) (name : String) (value : Json) : Json :=
  match schema.type? name, value with
  | some .date, .str s => (dateToJson? s).getD value
  | _, _ => value

/-- The dates of a record are coerced one by one. -/
theorem coerceDates_eq_map (schema : Schema) (record : Record) : schema.coerceDates record =
    record.map fun entry => (entry.1, schema.coerceDate entry.1 entry.2) := by
  refine List.map_congr_left ?_
  rintro ⟨key, value⟩ -
  unfold coerceDate
  simp only
  split <;> simp_all

theorem get?_coerceDates (schema : Schema) (record : Record) (name : String) :
    (schema.coerceDates record).get? name = (record.get? name).map (schema.coerceDate name) := by
  rw [coerceDates_eq_map]
  unfold Record.get?
  rw [List.find?_map]
  show ((record.find? fun entry => entry.1 == name).map _).map _ = _
  cases hfind : record.find? fun entry => entry.1 == name with
  | none => rfl
  | some entry =>
    obtain rfl : entry.1 = name := by simpa using List.find?_some hfind
    rfl

/-- A value is kept, or it is a text that becomes a number. -/
theorem coerceDate_cases (schema : Schema) (name : String) (value : Json) :
    schema.coerceDate name value = value ∨
      (∃ s, value = .str s) ∧ ∃ n, schema.coerceDate name value = .num n := by
  unfold coerceDate
  split
  case h_1 text _ =>
    cases hdate : dateToJson? text with
    | none => exact .inl rfl
    | some json =>
      obtain ⟨n, -, rfl⟩ := Option.map_eq_some_iff.1 hdate
      exact .inr ⟨⟨text, rfl⟩, n, rfl⟩
  case h_2 => exact .inl rfl

theorem coerceDate_of_ne_str (schema : Schema) (name : String) (h : ∀ s, value ≠ .str s) :
    schema.coerceDate name value = value :=
  (schema.coerceDate_cases name value).resolve_right fun ⟨⟨s, hs⟩, _⟩ => h s hs

/-- What was coerced as a date is not coerced further. -/
theorem coerceDate_coerceDate (schema : Schema) (name : String) (value : Json) :
    schema.coerceDate name (schema.coerceDate name value) = schema.coerceDate name value := by
  rcases schema.coerceDate_cases name value with hsame | ⟨-, n, hnum⟩
  · rw [hsame, hsame]
  · exact coerceDate_of_ne_str schema name fun s => by rw [hnum]; nofun

/-- No date is null. -/
theorem isNull_coerceDate (schema : Schema) (name : String) (value : Json) :
    (schema.coerceDate name value).isNull = value.isNull := by
  rcases schema.coerceDate_cases name value with hsame | ⟨⟨s, rfl⟩, n, hnum⟩
  · rw [hsame]
  · rw [hnum]
    rfl

/-- Key values are no texts that are to be read as dates. -/
theorem coerceDate_of_admits (h : schema.Admits name value) :
    schema.coerceDate name value = value := by
  unfold coerceDate
  split
  case h_1 s hdate => cases h _ hdate
  case h_2 => rfl

end Schema

end KeyedStore
