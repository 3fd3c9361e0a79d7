import KeyedStore.Attribute.Wire
import KeyedStore.Proofs.Except
import KeyedStore.Proofs.Json.KeyOrder
import KeyedStore.Proofs.OrderedMap
import KeyedStore.Proofs.Text.Base64

/-!
# Wire forms of attribute values

`IsWireForm` says, without the decoder, which JSON values are wire forms: objects whose only key is
one of ten type tags, with a payload of the shape that the tag asks for, at every depth. The decoder
accepts exactly these, encoding a value that was decoded writes the same JSON again, and decoding
what was encoded brings the value back, whatever the order of keys.
-/
namespace KeyedStore

/-- A function that succeeds exactly on the images of another one is undone on lists by it. -/
theorem mapM_eq_ok_iff_of_inverse {ε α β : Type} {f : α → Except ε β} {g : β → α}
    (h : ∀ a b, f a = .ok b ↔ a = g b) {xs : List α} {ys : List β} :
    xs.mapM f = .ok ys ↔ xs = ys.map g := by
  induction xs generalizing ys with
  | nil => cases ys <;> simp [pure, Except.pure]
  | cons x rest ih =>
    rw [List.mapM_cons]
    constructor
    · intro hcons
      obtain ⟨y, hy, hcons⟩ := bind_eq_ok_iff.1 hcons
      obtain ⟨others, hothers, hcons⟩ := bind_eq_ok_iff.1 hcons
      cases hcons
      rw [List.map_cons, (h x y).1 hy, ih.1 hothers]
    · intro hcons
      obtain ⟨y, others, rfl, hy, hothers⟩ := List.map_eq_cons_iff.1 hcons.symm
      rw [(h x y).2 hy.symm, ok_bind, ih.2 hothers.symm, ok_bind]
      rfl

namespace Decoder

theorem ofOption_eq_ok_iff {α : Type} {value : Option α} {a : α} :
    ofOption value = .ok a ↔ value = some a := by
  cases value <;> simp [ofOption]

theorem string_eq_ok_iff {json : Json} {text : String} :
    string json = .ok text ↔ json = .str text := by
  cases json <;> simp [string, Json.str?, ofOption]

theorem bool_eq_ok_iff {json : Json} {b : Bool} : bool json = .ok b ↔ json = .bool b := by
  cases json <;> simp [bool, Json.bool?, ofOption]

theorem list_eq_ok_iff {α : Type} {element : Decoder α} {encode : α → Json}
    (h : ∀ json a, element json = .ok a ↔ json = encode a) {json : Json} {values : List α} :
    list element json = .ok values ↔ json = .arr (values.map encode) := by
  cases json with
  | arr elements => simpa [list, Json.arr?, ofOption] using mapM_eq_ok_iff_of_inverse h
  | null | bool _ | num _ | str _ | obj _ => simp [list, Json.arr?, ofOption]

end Decoder

namespace AttributeValue

/-- Whether every map in a value has its entries in the order of their names, each name once. -/
inductive IsOrdered : AttributeValue → Prop where
  | string (text : String) : IsOrdered (.string text)
  | number (text : String) : IsOrdered (.number text)
  | binary (bytes : List UInt8) : IsOrdered (.binary bytes)
  | stringSet (members : List String) : IsOrdered (.stringSet members)
  | numberSet (members : List String) : IsOrdered (.numberSet members)
  | binarySet (members : List (List UInt8)) : IsOrdered (.binarySet members)
  | bool (b : Bool) : IsOrdered (.bool b)
  | null (b : Bool) : IsOrdered (.null b)
  | list {elements : List AttributeValue} (h : ∀ element ∈ elements, element.IsOrdered) :
      IsOrdered (.list elements)
  | map {entries : OrderedMap String AttributeValue} (ascending : entries.IsAscending)
      (h : ∀ entry ∈ entries, entry.2.IsOrdered) : IsOrdered (.map entries)

/-- Whether a JSON value has the shape of a value on the wire. -/
inductive IsWireForm : Json → Prop where
  | string (text : String) : IsWireForm (.obj [("S", .str text)])
  | number (text : String) : IsWireForm (.obj [("N", .str text)])
  | binary (bytes : List UInt8) : IsWireForm (.obj [("B", .str (Text.Base64.encode bytes))])
  | stringSet (members : List String) : IsWireForm (.obj [("SS", .arr (members.map .str))])
  | numberSet (members : List String) : IsWireForm (.obj [("NS", .arr (members.map .str))])
  | binarySet (members : List (List UInt8)) :
      IsWireForm (.obj [("BS", .arr (members.map fun bytes => .str (Text.Base64.encode bytes)))])
  | bool (b : Bool) : IsWireForm (.obj [("BOOL", .bool b)])
  | null (b : Bool) : IsWireForm (.obj [("NULL", .bool b)])
  | list {elements : List Json} (h : ∀ element ∈ elements, IsWireForm element) :
      IsWireForm (.obj [("L", .arr elements)])
  | map {entries : Record} (h : ∀ entry ∈ entries, IsWireForm entry.2) :
      IsWireForm (.obj [("M", .obj entries)])

variable {value : AttributeValue} {json : Json} {elements : List Json} {entries : Record}

theorem decodeBinary_eq_ok_iff {bytes : List UInt8} :
    decodeBinary json = .ok bytes ↔ json = .str (Text.Base64.encode bytes) := by
  cases json with
  | str text =>
    show Decoder.ofOption (Text.Base64.decode? text) = _ ↔ _
    rw [Decoder.ofOption_eq_ok_iff, Text.Base64.decode?_eq_some_iff, Json.str.injEq]
  | null | bool _ | num _ | arr _ | obj _ =>
    simp [decodeBinary, Decoder.string, Json.str?, Decoder.ofOption]

/-- The payload of a binary set is a list of base64 texts. -/
theorem binarySet_eq_ok_iff {payload : Json} :
    (Decoder.list Decoder.string payload >>= fun texts =>
      binarySet <$> texts.mapM fun text => Decoder.ofOption (Text.Base64.decode? text)) =
        .ok value ↔ ∃ members, value = binarySet members ∧
      payload = .arr (members.map fun bytes => .str (Text.Base64.encode bytes)) := by
  have hdecode (text : String) (bytes : List UInt8) :
      Decoder.ofOption (Text.Base64.decode? text) = .ok bytes ↔ text = Text.Base64.encode bytes :=
    Decoder.ofOption_eq_ok_iff.trans Text.Base64.decode?_eq_some_iff
  have htexts (texts : List String) :
      Decoder.list Decoder.string payload = .ok texts ↔ payload = .arr (texts.map .str) :=
    Decoder.list_eq_ok_iff fun _ _ => Decoder.string_eq_ok_iff
  simp only [bind_eq_ok_iff, map_eq_ok_iff, htexts, mapM_eq_ok_iff_of_inverse hdecode]
  constructor
  · rintro ⟨_, rfl, members, rfl, rfl⟩
    exact ⟨members, rfl, by simp⟩
  · rintro ⟨members, rfl, rfl⟩
    exact ⟨members.map Text.Base64.encode, by simp, members, rfl, rfl⟩

/-- A wire form has one entry, and its payload is decoded as the tag asks. -/
theorem ofWire_singleton (tag : String) (payload : Json) :
    ofWire (.obj [(tag, payload)]) = ofPayload tag payload := by
  rw [ofWire]
  cases ofPayload tag payload <;> rfl

theorem listToWire_eq_map (values : List AttributeValue) :
    listToWire values = values.map toWire := by
  induction values with
  | nil => rfl
  | cons value rest ih => rw [listToWire, ih, List.map_cons]

theorem entriesToWire_eq_map (map : OrderedMap String AttributeValue) :
    entriesToWire map = map.map fun entry => (entry.1, entry.2.toWire) := by
  induction map with
  | nil => rfl
  | cons entry rest ih => rw [entriesToWire, ih, List.map_cons]

theorem get?_entriesToWire (map : OrderedMap String AttributeValue) (key : String) :
    Record.get? (entriesToWire map) key = (map.get? key).map toWire := by
  rw [entriesToWire_eq_map, Record.get?_map]

/-- No key is written twice. -/
theorem hasDistinctKeys_toWire (h : value.IsOrdered) : value.toWire.HasDistinctKeys := by
  have hsingleton (tag : String) {payload : Json} (hpayload : payload.HasDistinctKeys) :
      (Json.obj [(tag, payload)]).HasDistinctKeys :=
    .obj (List.nodup_singleton _) (by simpa using hpayload)
  have htexts {α : Type} (text : α → String) (xs : List α) :
      (Json.arr (xs.map fun x => .str (text x))).HasDistinctKeys :=
    .arr (List.forall_mem_map.2 fun x _ => .str (text x))
  induction h with
  | string text => exact hsingleton "S" (.str text)
  | number text => exact hsingleton "N" (.str text)
  | binary bytes => exact hsingleton "B" (.str _)
  | stringSet members => exact hsingleton "SS" (htexts id members)
  | numberSet members => exact hsingleton "NS" (htexts id members)
  | binarySet members => exact hsingleton "BS" (htexts _ members)
  | bool b => exact hsingleton "BOOL" (.bool b)
  | null b => exact hsingleton "NULL" (.bool b)
  | list h ih =>
    refine hsingleton "L" (.arr ?_)
    rw [listToWire_eq_map]
    exact List.forall_mem_map.2 ih
  | map ascending h ih =>
    refine hsingleton "M" (.obj ?_ ?_) <;> rw [entriesToWire_eq_map]
    · rw [List.map_map]
      exact ascending.nodup_keys
    · exact List.forall_mem_map.2 ih

/-- The entries of a map are decoded one by one, and stand in the order of their names after it. -/
theorem exists_entriesOfWire {p : AttributeValue → Json → Prop}
    (h : ∀ entry ∈ entries, ∃ value, ofWire entry.2 = .ok value ∧ p value entry.2) :
    ∃ map, entriesOfWire entries = .ok map ∧ map.IsAscending ∧
      ∀ key, Option.Rel (fun value json => ofWire json = .ok value ∧ p value json)
        (map.get? key) (entries.get? key) := by
  induction entries with
  | nil => exact ⟨[], rfl, .nil, fun _ => .none⟩
  | cons entry rest ih =>
    obtain ⟨name, json⟩ := entry
    obtain ⟨⟨value, hvalue⟩, hrest⟩ := List.forall_mem_cons.1 h
    obtain ⟨map, hmap, hascending, hdecoded⟩ := ih hrest
    refine ⟨map.insert name value, ?_, hascending.insert, fun key => ?_⟩
    · simp only [entriesOfWire, hvalue.1, hmap, ok_bind]
    · have hcompare : compare key name = .eq ↔ name = key :=
        Std.LawfulEqCmp.compare_eq_iff_eq.trans eq_comm
      rw [OrderedMap.get?_insert]
      by_cases hname : name = key
      · simpa [hcompare, hname, Record.get?] using hvalue
      · simpa [hcompare, hname, Record.get?] using hdecoded key

theorem exists_payload_of_same {tag : String} {payload : Json}
    (h : (Json.obj [(tag, payload)]).Same json) (hdistinct : json.HasDistinctKeys) :
    ∃ other, json = .obj [(tag, other)] ∧ payload.Same other ∧ other.HasDistinctKeys := by
  cases h with
  | obj h =>
    cases hdistinct with
    | obj distinct hvalues =>
      obtain ⟨other, rfl, hsame⟩ := Record.eq_singleton_of_same h distinct
      exact ⟨other, rfl, hsame, hvalues _ List.mem_cons_self⟩

/-- Texts have no keys. -/
theorem eq_of_same_texts {α : Type} (text : α → String) {members : List α}
    (h : (Json.arr (members.map fun a => .str (text a))).Same json) :
    json = .arr (members.map fun a => .str (text a)) := by
  cases h with
  | arr h =>
    refine congrArg Json.arr ?_
    rw [List.forall₂_map_left_iff] at h
    induction h with
    | nil => rfl
    | cons hfirst _ ih =>
      cases hfirst
      rw [ih, List.map_cons]

/-- A list is decoded if its elements are. -/
theorem listOfWire_of_same {values : List AttributeValue} {elements : List Json}
    (hvalues : ∀ value ∈ values, ∀ json, value.toWire.Same json → json.HasDistinctKeys →
      ofWire json = .ok value)
    (h : List.Forall₂ Json.Same (listToWire values) elements)
    (hdistinct : ∀ element ∈ elements, element.HasDistinctKeys) :
    listOfWire elements = .ok values := by
  induction values generalizing elements with
  | nil =>
    cases h
    rfl
  | cons value rest ih =>
    obtain ⟨hvalue, hrest⟩ := List.forall_mem_cons.1 hvalues
    cases h with
    | @cons _ json _ others hsame hothers =>
      obtain ⟨hjson, hkeys⟩ := List.forall_mem_cons.1 hdistinct
      simp only [listOfWire, hvalue json hsame hjson, ih hrest hothers hkeys, ok_bind]

/-- A map is decoded from its entries in any order. -/
theorem entriesOfWire_of_same {map : OrderedMap String AttributeValue} {entries : Record}
    (ascending : map.IsAscending)
    (hmap : ∀ entry ∈ map, ∀ json, entry.2.toWire.Same json → json.HasDistinctKeys →
      ofWire json = .ok entry.2)
    (h : ∀ key, Option.Rel Json.Same (Record.get? (entriesToWire map) key) (entries.get? key))
    (hproper : entries.IsProper) : entriesOfWire entries = .ok map := by
  have hread {entry : String × Json} (hmem : entry ∈ entries) :
      ∃ value, map.get? entry.1 = some value ∧ ofWire entry.2 = .ok value := by
    obtain ⟨written, hget, hsame⟩ := Record.exists_same_of_mem h hproper.distinct hmem
    rw [get?_entriesToWire] at hget
    obtain ⟨value, hvalue, rfl⟩ := Option.map_eq_some_iff.1 hget
    exact ⟨value, hvalue, hmap (entry.1, value) (ascending.get?_eq_some_iff.1 hvalue) entry.2 hsame
      (hproper.values entry hmem)⟩
  obtain ⟨found, hfound, hascending, hdecoded⟩ :=
    exists_entriesOfWire (p := fun _ _ => True) fun entry hmem =>
      (hread hmem).imp fun _ h => ⟨h.2, trivial⟩
  rw [hfound, hascending.eq_of_get? ascending fun key => ?_]
  have hkey := hdecoded key
  have hwritten := h key
  rw [get?_entriesToWire] at hwritten
  cases hget : entries.get? key with
  | none =>
    rw [hget] at hkey hwritten
    rw [eq_none_of_rel hkey, Option.map_eq_none_iff.1 (eq_none_of_rel hwritten)]
  | some json =>
    obtain ⟨value, hvalue, hjson⟩ := hread ((Record.get?_eq_some_iff hproper.distinct).1 hget)
    rw [hget] at hkey
    obtain ⟨other, hother, hjson', -⟩ := exists_of_rel_some hkey
    rw [hother, hvalue, Except.ok.inj (hjson'.symm.trans hjson)]

/-- A value is decoded from its wire form with the keys of its maps in any order. -/
theorem ofWire_of_same (h : value.IsOrdered) (hsame : value.toWire.Same json)
    (hdistinct : json.HasDistinctKeys) : ofWire json = .ok value := by
  induction h generalizing json with
  | string text | number text | bool b | null b =>
    obtain ⟨payload, rfl, hpayload, -⟩ := exists_payload_of_same hsame hdistinct
    cases hpayload
    rfl
  | binary bytes =>
    obtain ⟨payload, rfl, hpayload, -⟩ := exists_payload_of_same hsame hdistinct
    cases hpayload
    rw [ofWire_singleton]
    exact map_eq_ok_iff.2 ⟨bytes, decodeBinary_eq_ok_iff.2 rfl, rfl⟩
  | stringSet members | numberSet members =>
    obtain ⟨payload, rfl, hpayload, -⟩ := exists_payload_of_same hsame hdistinct
    rw [eq_of_same_texts id hpayload, ofWire_singleton]
    exact map_eq_ok_iff.2
      ⟨members, (Decoder.list_eq_ok_iff fun _ _ => Decoder.string_eq_ok_iff).2 rfl, rfl⟩
  | binarySet members =>
    obtain ⟨payload, rfl, hpayload, -⟩ := exists_payload_of_same hsame hdistinct
    rw [eq_of_same_texts _ hpayload, ofWire_singleton, ofPayload]
    exact binarySet_eq_ok_iff.2 ⟨members, rfl, rfl⟩
  | list h ih =>
    obtain ⟨payload, rfl, hpayload, hkeys⟩ := exists_payload_of_same hsame hdistinct
    rw [ofWire_singleton]
    cases hpayload with
    | arr helements =>
      cases hkeys with
      | arr hkeys =>
        exact map_eq_ok_iff.2 ⟨_, listOfWire_of_same (fun element hmem json => ih element hmem)
          helements hkeys, rfl⟩
  | map ascending h ih =>
    obtain ⟨payload, rfl, hpayload, hkeys⟩ := exists_payload_of_same hsame hdistinct
    rw [ofWire_singleton]
    cases hpayload with
    | obj hentries =>
      exact map_eq_ok_iff.2 ⟨_, entriesOfWire_of_same ascending
        (fun entry hmem json => ih entry hmem) hentries hkeys.isProper, rfl⟩

/-- Decoding brings an encoded value back. -/
theorem ofWire_toWire (h : value.IsOrdered) : ofWire value.toWire = .ok value :=
  have hdistinct := hasDistinctKeys_toWire h
  ofWire_of_same h hdistinct.same_self hdistinct

mutual

/-- What is decoded is a wire form. -/
theorem isWireForm_of_ofWire : ∀ {json : Json} {value : AttributeValue},
    ofWire json = .ok value → IsWireForm json
  | .obj [], _, h => by cases h
  | .obj ((tag, payload) :: rest), value, h => by
    rw [ofWire] at h
    obtain ⟨found, hpayload, h⟩ := bind_eq_ok_iff.1 h
    split at h
    case isFalse => cases h
    case isTrue hrest =>
      rw [List.isEmpty_iff.1 hrest]
      exact isWireForm_of_ofPayload hpayload
  | .null, _, h | .bool _, _, h | .num _, _, h | .str _, _, h | .arr _, _, h => by cases h

theorem isWireForm_of_ofPayload : ∀ {tag : String} {payload : Json} {value : AttributeValue},
    ofPayload tag payload = .ok value → IsWireForm (.obj [(tag, payload)]) := by
  intro tag payload value h
  have htext {text : String} (htext : Decoder.string payload = .ok text) : payload = .str text :=
    Decoder.string_eq_ok_iff.1 htext
  have htexts {texts : List String} (htexts : Decoder.list Decoder.string payload = .ok texts) :
      payload = .arr (texts.map .str) :=
    (Decoder.list_eq_ok_iff fun _ _ => Decoder.string_eq_ok_iff).1 htexts
  unfold ofPayload at h
  split at h
  case h_1 =>
    obtain ⟨text, hpayload, -⟩ := map_eq_ok_iff.1 h
    exact htext hpayload ▸ .string text
  case h_2 =>
    obtain ⟨text, hpayload, -⟩ := map_eq_ok_iff.1 h
    exact htext hpayload ▸ .number text
  case h_3 =>
    obtain ⟨bytes, hpayload, -⟩ := map_eq_ok_iff.1 h
    exact decodeBinary_eq_ok_iff.1 hpayload ▸ .binary bytes
  case h_4 =>
    obtain ⟨members, hpayload, -⟩ := map_eq_ok_iff.1 h
    exact htexts hpayload ▸ .stringSet members
  case h_5 =>
    obtain ⟨members, hpayload, -⟩ := map_eq_ok_iff.1 h
    exact htexts hpayload ▸ .numberSet members
  case h_6 =>
    obtain ⟨members, -, hpayload⟩ := binarySet_eq_ok_iff.1 h
    exact hpayload ▸ .binarySet members
  case h_7 =>
    obtain ⟨b, hpayload, -⟩ := map_eq_ok_iff.1 h
    exact Decoder.bool_eq_ok_iff.1 hpayload ▸ .bool b
  case h_8 =>
    obtain ⟨b, hpayload, -⟩ := map_eq_ok_iff.1 h
    exact Decoder.bool_eq_ok_iff.1 hpayload ▸ .null b
  case h_9 =>
    split at h
    case h_1 elements =>
      obtain ⟨values, hvalues, -⟩ := map_eq_ok_iff.1 h
      exact .list (isWireForm_of_listOfWire hvalues)
    case h_2 => cases h
  case h_10 =>
    split at h
    case h_1 entries =>
      obtain ⟨map, hmap, -⟩ := map_eq_ok_iff.1 h
      exact .map (isWireForm_of_entriesOfWire hmap)
    case h_2 => cases h
  case h_11 => cases h

theorem isWireForm_of_listOfWire : ∀ {elements : List Json} {values : List AttributeValue},
    listOfWire elements = .ok values → ∀ element ∈ elements, IsWireForm element
  | [], _, _ => nofun
  | json :: rest, _, h => by
    obtain ⟨value, hvalue, h⟩ := bind_eq_ok_iff.1 h
    obtain ⟨values, hvalues, -⟩ := bind_eq_ok_iff.1 h
    exact List.forall_mem_cons.2 ⟨isWireForm_of_ofWire hvalue, isWireForm_of_listOfWire hvalues⟩

theorem isWireForm_of_entriesOfWire : ∀ {entries : Record} {map : OrderedMap String AttributeValue},
    entriesOfWire entries = .ok map → ∀ entry ∈ entries, IsWireForm entry.2
  | [], _, _ => nofun
  | (name, json) :: rest, _, h => by
    obtain ⟨value, hvalue, h⟩ := bind_eq_ok_iff.1 h
    obtain ⟨values, hvalues, -⟩ := bind_eq_ok_iff.1 h
    exact List.forall_mem_cons.2
      ⟨isWireForm_of_ofWire hvalue, isWireForm_of_entriesOfWire hvalues⟩

end

theorem same_singleton (tag : String) {payload other : Json} (h : payload.Same other) :
    Json.Same (.obj [(tag, payload)]) (.obj [(tag, other)]) := by
  refine .obj fun key => ?_
  by_cases hkey : tag = key
  · simpa [Record.get?, hkey] using Option.Rel.some h
  · simp [Record.get?, hkey]

/-- The elements of a list are decoded one by one. -/
theorem exists_listOfWire (h : ∀ element ∈ elements, ∃ value, ofWire element = .ok value ∧
    value.IsOrdered ∧ value.toWire.Same element) :
    ∃ values, listOfWire elements = .ok values ∧ (∀ value ∈ values, value.IsOrdered) ∧
      List.Forall₂ Json.Same (listToWire values) elements := by
  induction elements with
  | nil => exact ⟨[], rfl, nofun, .nil⟩
  | cons element rest ih =>
    obtain ⟨⟨value, hvalue, hordered, hsame⟩, hrest⟩ := List.forall_mem_cons.1 h
    obtain ⟨values, hvalues, hallOrdered, hallSame⟩ := ih hrest
    refine ⟨value :: values, ?_, List.forall_mem_cons.2 ⟨hordered, hallOrdered⟩,
      .cons hsame hallSame⟩
    simp only [listOfWire, hvalue, hvalues, ok_bind]

/-- A wire form is decoded, and what it is decoded as is written in the same way. -/
theorem exists_ofWire (h : IsWireForm json) :
    ∃ value, ofWire json = .ok value ∧ value.IsOrdered ∧ value.toWire.Same json := by
  have hencoded {value : AttributeValue} (hordered : value.IsOrdered) :
      ∃ found, ofWire value.toWire = .ok found ∧ found.IsOrdered ∧
        found.toWire.Same value.toWire :=
    ⟨value, ofWire_toWire hordered, hordered, (hasDistinctKeys_toWire hordered).same_self⟩
  induction h with
  | string text => exact hencoded (.string text)
  | number text => exact hencoded (.number text)
  | binary bytes => exact hencoded (.binary bytes)
  | stringSet members => exact hencoded (.stringSet members)
  | numberSet members => exact hencoded (.numberSet members)
  | binarySet members => exact hencoded (.binarySet members)
  | bool b => exact hencoded (.bool b)
  | null b => exact hencoded (.null b)
  | list h ih =>
    obtain ⟨values, hvalues, hordered, hsame⟩ := exists_listOfWire ih
    refine ⟨.list values, ?_, .list hordered, same_singleton "L" (.arr hsame)⟩
    rw [ofWire_singleton]
    exact map_eq_ok_iff.2 ⟨values, hvalues, rfl⟩
  | map h ih =>
    obtain ⟨map, hmap, hascending, hdecoded⟩ :=
      exists_entriesOfWire (p := fun value json => value.IsOrdered ∧ value.toWire.Same json) ih
    refine ⟨.map map, ?_, .map hascending fun entry hmem => ?_,
      same_singleton "M" (.obj fun key => ?_)⟩
    · rw [ofWire_singleton]
      exact map_eq_ok_iff.2 ⟨map, hmap, rfl⟩
    · have hkey := hdecoded entry.1
      rw [hascending.get?_eq_some_iff.2 hmem] at hkey
      obtain ⟨json, -, -, hordered, -⟩ := exists_of_some_rel hkey
      exact hordered
    · rw [get?_entriesToWire]
      exact rel_map_left (hdecoded key) fun _ _ h => h.2.2

/-- Encoding and decoding are inverse to each other. A value comes back from its wire form; what is
decoded is exactly what has the shape of a wire form; and a value that was decoded is written as it
was read, except for the order of the entries of maps. -/
theorem wire_inverse :
    (∀ value : AttributeValue, value.IsOrdered → ofWire value.toWire = .ok value) ∧
    (∀ json, (∃ value, ofWire json = .ok value) ↔ IsWireForm json) ∧
    ∀ json value, ofWire json = .ok value →
      value.IsOrdered ∧ value.toWire.HasDistinctKeys ∧ value.toWire.Same json := by
  refine ⟨fun value h => ofWire_toWire h, fun json => ⟨?_, ?_⟩, fun json value hvalue => ?_⟩
  · rintro ⟨value, h⟩
    exact isWireForm_of_ofWire h
  · intro h
    obtain ⟨value, hvalue, -⟩ := exists_ofWire h
    exact ⟨value, hvalue⟩
  · obtain ⟨found, hfound, hordered, hsame⟩ := exists_ofWire (isWireForm_of_ofWire hvalue)
    obtain rfl : value = found := Except.ok.inj (hvalue.symm.trans hfound)
    exact ⟨hordered, hasDistinctKeys_toWire hordered, hsame⟩

def picture : AttributeValue :=
  .map [("data", .binary [0, 1, 98, 108]), ("labels", .list [.string "a", .map [], .null true]),
    ("sizes", .numberSet []), ("thumbs", .binarySet [[], [255]])]

/-- The wire form of the picture, its entries in another order. -/
def pictureForm : Json :=
  .obj [("M", .obj [("thumbs", .obj [("BS", .arr [.str "", .str "/w=="])]),
    ("labels", .obj [("L", .arr [.obj [("S", .str "a")], .obj [("M", .obj [])],
      .obj [("NULL", .bool true)]])]),
    ("data", .obj [("B", .str "AAFibA==")]), ("sizes", .obj [("NS", .arr [])])])]

/-- A picture comes back from its wire form, and is decoded from it in any order of the entries. -/
theorem wire_inverse_picture : picture.IsOrdered ∧ ofWire picture.toWire = .ok picture ∧
    ofWire pictureForm = .ok picture ∧ IsWireForm pictureForm ∧
    picture.toWire.Same pictureForm := by
  have hdecoded : ofWire pictureForm = .ok picture := rfl
  obtain ⟨hordered, -, hsame⟩ := wire_inverse.2.2 pictureForm picture hdecoded
  exact ⟨hordered, wire_inverse.1 picture hordered, hdecoded,
    (wire_inverse.2.1 pictureForm).1 ⟨picture, hdecoded⟩, hsame⟩

end AttributeValue

end KeyedStore
