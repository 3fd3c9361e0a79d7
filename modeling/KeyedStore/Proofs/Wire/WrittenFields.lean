import KeyedStore.Proofs.Attribute.WireForms
import Mathlib.Data.List.Forall2

/-!
# Written fields

What is written for a value is read back field by field. `Decoder.Restores` is the law of a single
value, `Fields.Writes` the law of a list of fields and the entries written for them. Both hold of a
compound when they hold of its parts, so a structure follows from the rules of its fields alone. The
order of keys is not part of what is written: a value is read back from any arrangement of them.

## Main definitions

* `Decoder.Restores`: a decoder reads a value back from its wire form.
* `Fields.Writes`: entries carry the values of fields.
* `Decoder.ReadsBack`: a value is read back from an object with keys in Pascal case.
* `Decoder.ReadsWords`: values are read back from upper-case words.
-/
namespace KeyedStore

variable {α β : Type}

/-- A signed 64-bit integer. -/
def FitsInt64 (n : Int) : Prop := -Nat.pow 2 63 ≤ n ∧ n < Nat.pow 2 63

/-- A signed 32-bit integer. -/
def FitsInt32 (n : Int) : Prop := -Nat.pow 2 31 ≤ n ∧ n < Nat.pow 2 31

instance (n : Int) : Decidable (FitsInt64 n) := inferInstanceAs (Decidable (_ ∧ _))

instance (n : Int) : Decidable (FitsInt32 n) := inferInstanceAs (Decidable (_ ∧ _))

theorem FitsInt32.fitsInt64 {n : Int} (h : FitsInt32 n) : FitsInt64 n := by
  simp only [FitsInt32, FitsInt64, Nat.pow_eq] at *
  omega

theorem FitsInt64.exists_ofInt {n : Int} (h : FitsInt64 n) :
    ∃ number, Json.ofInt n = .num number ∧ number.int64? = some n := by
  have hrange : -Nat.pow 2 63 ≤ n ∧ n < Nat.pow 2 64 := by
    simp only [FitsInt64, Nat.pow_eq] at *
    omega
  exact ⟨.int n hrange, by rw [Json.ofInt, Number.ofInt?, dif_pos hrange], if_pos h.2⟩

namespace Decoder

/-- A decoder reads a value back from its wire form with the keys of objects in any order. A wire
form is not null, which stands for no value. -/
structure Restores (read : Decoder α) (written : Json) (a : α) : Prop where
  read_same : ∀ arranged : Json, written.Same arranged → arranged.HasDistinctKeys →
    read arranged = .ok a
  distinct : written.HasDistinctKeys
  ne_null : written ≠ .null

section Rules

variable {read : Decoder α} {write : α → Json} {written : Json} {a : α} {values : List α}

theorem Restores.read_eq_ok (h : read.Restores written a) : read written = .ok a :=
  h.read_same written h.distinct.same_self h.distinct

theorem Restores.map (h : read.Restores written a) (g : α → β) :
    Restores (fun json => g <$> read json) written (g a) where
  read_same arranged hsame hdistinct :=
    map_eq_ok_iff.2 ⟨a, h.read_same arranged hsame hdistinct, rfl⟩
  distinct := h.distinct
  ne_null := h.ne_null

/-- What is read back is not taken for an absent value. -/
theorem Restores.nullable (h : read.Restores written a) :
    (nullable read).Restores written (some a) where
  read_same arranged hsame hdistinct := by
    have hnull : arranged ≠ .null := by
      rintro rfl
      cases hsame
      exact h.ne_null rfl
    rw [Decoder.nullable.eq_2 _ _ hnull, h.read_same arranged hsame hdistinct]
    rfl
  distinct := h.distinct
  ne_null := h.ne_null

theorem restores_string (text : String) : string.Restores (.str text) text where
  read_same := by
    rintro _ ⟨⟩ -
    rfl
  distinct := .str text
  ne_null := nofun

theorem restores_bool (b : Bool) : bool.Restores (.bool b) b where
  read_same := by
    rintro _ ⟨⟩ -
    rfl
  distinct := .bool b
  ne_null := nofun

/-- A number is read back if it is read from its text. -/
theorem restores_num {n : Number} (h : read (.num n) = .ok a) : read.Restores (.num n) a where
  read_same := by
    rintro _ ⟨⟩ -
    exact h
  distinct := .num n
  ne_null := nofun

theorem restores_int64 {n : Int} (h : FitsInt64 n) : int64.Restores (.ofInt n) n := by
  obtain ⟨number, hwrite, hint⟩ := h.exists_ofInt
  rw [hwrite]
  exact restores_num (by rw [int64, Json.int64?, hint, ofOption])

theorem restores_int32 {n : Int} (h : FitsInt32 n) : int32.Restores (.ofInt n) n := by
  obtain ⟨number, hwrite, hint⟩ := h.fitsInt64.exists_ofInt
  have hkept : (some n).filter (fun n : Int => -Nat.pow 2 31 ≤ n && n < Nat.pow 2 31) = some n :=
    Option.filter_some_pos (by simpa [FitsInt32] using h)
  rw [hwrite]
  exact restores_num (by rw [int32, Json.int64?, hint, hkept, ofOption])

theorem restores_binary64 {x : Binary64} (h : x.isFinite = true) :
    binary64.Restores (.ofBinary64 x) x := by
  rw [Json.ofBinary64, Number.ofBinary64?, dif_pos h]
  exact restores_num rfl

theorem mapM_eq_ok_of_same {elements : List Json} (h : ∀ a ∈ values, read.Restores (write a) a)
    (hsame : List.Forall₂ Json.Same (values.map write) elements)
    (hdistinct : ∀ element ∈ elements, element.HasDistinctKeys) :
    elements.mapM read = .ok values := by
  induction values generalizing elements with
  | nil =>
    cases hsame
    rfl
  | cons a rest ih =>
    obtain ⟨ha, hrest⟩ := List.forall_mem_cons.1 h
    cases hsame with
    | @cons _ json _ others hjson hothers =>
      obtain ⟨hkeys, hall⟩ := List.forall_mem_cons.1 hdistinct
      rw [List.mapM_cons, ha.read_same json hjson hkeys, ok_bind, ih hrest hothers hall]
      rfl

/-- A list is read back if its elements are. -/
theorem restores_list (h : ∀ a ∈ values, read.Restores (write a) a) :
    (list read).Restores (.arr (values.map write)) values where
  read_same := by
    rintro _ ⟨⟩ hdistinct
    cases hdistinct with
    | arr hkeys => exact mapM_eq_ok_of_same h ‹_› hkeys
  distinct := .arr (List.forall_mem_map.2 fun a hmem => (h a hmem).distinct)
  ne_null := nofun

end Rules

end Decoder

namespace Fields

/-- An entry is written under the name of a field, with a value that the field accepts. -/
structure Admits (field : FieldCheck) (entry : String × Json) : Prop where
  name : entry.1 = field.name
  check : field.check.Restores entry.2 ()

/-- Entries carry a value of the given fields: one entry for each field, or none where it is left
out, from which the value is built. -/
structure Writes (fields : Fields α) (entries : List (Option (String × Json))) (a : α) : Prop where
  admits : List.Forall₂ (fun field entry => ∀ e ∈ entry, Admits field e) fields.checks entries
  build : ∀ record : Record, record.IsProper →
    (∀ slot ∈ fields.checks.zip entries,
      Option.Rel Json.Same (slot.2.map (·.2)) (record.get? slot.1.name)) →
    fields.build record = .ok a

section Rules

variable {f : Fields (α → β)} {fields : Fields α} {entries others : List (Option (String × Json))}
  {value : Decoder α} {write : α → Json} {written : Json} {name : String} {a : α}
  {values : List α}

theorem Writes.seq {g : α → β} (hf : f.Writes entries g) (h : fields.Writes others a) :
    (f <*> fields).Writes (entries ++ others) (g a) where
  admits := List.rel_append hf.admits h.admits
  build record hproper hrecord := by
    have hslots : ∀ slot ∈ (f.checks ++ fields.checks).zip (entries ++ others),
      Option.Rel Json.Same (slot.2.map (·.2)) (record.get? slot.1.name) := hrecord
    rw [List.zip_append hf.admits.length_eq, List.forall_mem_append] at hslots
    show (f.build record >>= fun g => fields.build record >>= fun a => .ok (g a)) = _
    rw [hf.build record hproper hslots.1, ok_bind, h.build record hproper hslots.2, ok_bind]

theorem Writes.map (g : α → β) (h : fields.Writes entries a) :
    (g <$> fields).Writes entries (g a) := by
  have hpure : (Fields.pure g).Writes [] g := ⟨.nil, fun _ _ _ => rfl⟩
  exact hpure.seq h

/-- A single field carries a value if what is written is read as it, and what nothing is written
for is the value of an absent field. -/
theorem writes_singleton {read : Decoder α} {absent : Except DecodeError α} {mayBeCut : Bool}
    (json : Option Json) (hpresent : ∀ found ∈ json, read.Restores found a)
    (habsent : json = none → absent = .ok a) :
    Writes ⟨[⟨name, fun json => (fun _ => ()) <$> read json, mayBeCut⟩], fun record =>
      match record.get? name with
      | some json => read json
      | none => absent⟩ [Json.optionalEntry name json] a := by
  refine ⟨.cons ?_ .nil, fun record hproper hrecord => ?_⟩
  · intro e he
    obtain ⟨found, hfound, rfl⟩ := Option.map_eq_some_iff.1 he
    exact ⟨rfl, (hpresent found hfound).map _⟩
  · have hget : Option.Rel Json.Same json (record.get? name) := by
      simpa [Json.optionalEntry, Function.comp_def] using hrecord _ (.head _)
    cases json with
    | none =>
      have hnone : record.get? name = none := eq_none_of_none_rel hget
      simpa only [hnone] using habsent rfl
    | some found =>
      obtain ⟨arranged, hfound, hsame⟩ := exists_of_some_rel hget
      simpa only [hfound] using
        (hpresent found rfl).read_same arranged hsame (hproper.get? hfound)

theorem writes_required (name : String) (h : value.Restores written a) :
    (required name value).Writes [some (name, written)] a :=
  writes_singleton (some written) (by rintro _ ⟨rfl⟩; exact h) nofun

theorem writes_withDefault (name : String) (default : α) (h : value.Restores written a) :
    (withDefault name value default).Writes [some (name, written)] a :=
  writes_singleton (some written) (by rintro _ ⟨rfl⟩; exact h) nofun

theorem writes_optional (name : String) (found : Option α)
    (h : ∀ a ∈ found, value.Restores (write a) a) :
    (optional name value).Writes [Json.optionalEntry name (found.map write)] found := by
  refine writes_singleton _ (fun json hjson => ?_) fun hnone => ?_
  · obtain ⟨a, ha, rfl⟩ := Option.map_eq_some_iff.1 hjson
    exact ha ▸ (h a ha).nullable
  · rw [Option.map_eq_none_iff.1 hnone]

/-- A collection that is left out when it is empty is read as the empty one. -/
theorem writes_collection (name : String) {value : Decoder (List α)}
    (h : value.Restores written values) :
    (withDefault name value []).Writes
      [if values.isEmpty then none else some (name, written)] values := by
  cases values with
  | nil => exact writes_singleton none nofun fun _ => rfl
  | cons a rest => exact writes_withDefault name [] h

theorem writes_list (name : String) (values : List α)
    (h : ∀ a ∈ values, value.Restores (write a) a) :
    (withDefault name (Decoder.list value) []).Writes
      [Json.listEntry name (values.map write)] values := by
  have hlist := writes_collection name (Decoder.restores_list h)
  rwa [← List.isEmpty_map] at hlist

end Rules

section Objects

variable {checks : List FieldCheck} {entries : List (Option (String × Json))}
  {fields : Fields α} {a : α}

/-- Every entry that is written belongs to one of the fields. -/
theorem exists_admits
    (h : List.Forall₂ (fun field entry => ∀ e ∈ entry, Admits field e) checks entries)
    {entry : String × Json} (hmem : entry ∈ entries.filterMap id) :
    ∃ field ∈ checks, Admits field entry := by
  induction h with
  | nil => cases hmem
  | @cons field written checks entries hfirst _ ih =>
    rw [List.mem_filterMap] at hmem
    obtain ⟨found, hfound, hentry⟩ := hmem
    rcases List.mem_cons.1 hfound with rfl | hrest
    · exact ⟨field, List.mem_cons_self, hfirst entry hentry⟩
    · obtain ⟨other, hother, hadmits⟩ := ih (List.mem_filterMap.2 ⟨found, hrest, hentry⟩)
      exact ⟨other, List.mem_cons_of_mem _ hother, hadmits⟩

/-- The keys that are written are names of fields in the order of the fields. -/
theorem keys_sublist
    (h : List.Forall₂ (fun field entry => ∀ e ∈ entry, Admits field e) checks entries) :
    ((entries.filterMap id).map (·.1)).Sublist (checks.map (·.name)) := by
  induction h with
  | nil => exact .slnil
  | @cons field entry checks entries hfirst _ ih =>
    cases entry with
    | none => exact ih.cons _
    | some e =>
      have hname : e.1 = field.name := (hfirst e rfl).name
      simpa [hname] using ih

/-- Each field finds what was written for it. -/
theorem get?_written
    (h : List.Forall₂ (fun field entry => ∀ e ∈ entry, Admits field e) checks entries)
    (hnames : (checks.map (·.name)).Nodup) :
    ∀ slot ∈ checks.zip entries,
      Record.get? (entries.filterMap id) slot.1.name = slot.2.map (·.2) := by
  induction h with
  | nil => nofun
  | @cons field entry checks entries hfirst hadmits ih =>
    obtain ⟨hnew, hrest⟩ := List.nodup_cons.1 hnames
    have hnone : Record.get? (entries.filterMap id) field.name = none :=
      Record.get?_eq_none_iff.2 fun hkey => hnew ((keys_sublist hadmits).subset hkey)
    rw [List.zip_cons_cons, List.forall_mem_cons]
    refine ⟨?_, fun slot hslot => ?_⟩
    · cases entry with
      | none => exact hnone
      | some e => simp [Record.get?, (hfirst e rfl).name]
    · have hname : field.name ≠ slot.1.name := fun heq =>
        hnew (List.mem_map.2 ⟨slot.1, (List.of_mem_zip hslot).1, heq.symm⟩)
      rw [← ih hrest slot hslot]
      cases entry with
      | none => rfl
      | some e =>
        have hother : e.1 ≠ slot.1.name := (hfirst e rfl).name ▸ hname
        simp [Record.get?, hother]

theorem checkEntries_eq_ok {record : Record} (hnames : (checks.map (·.name)).Nodup)
    (h : ∀ entry ∈ record, ∃ field ∈ checks, entry.1 = field.name ∧
      field.check entry.2 = .ok ()) :
    checkEntries checks record = .ok () := by
  induction record with
  | nil => rfl
  | cons entry rest ih =>
    obtain ⟨⟨field, hfield, hentry, hcheck⟩, hrest⟩ := List.forall_mem_cons.1 h
    obtain ⟨name, json⟩ := entry
    have hfind : checks.find? (·.name == name) = some field := by
      have hsome : (checks.find? (·.name == name)).isSome :=
        List.find?_isSome.2 ⟨field, hfield, by simpa using hentry.symm⟩
      obtain ⟨found, hfound⟩ := Option.isSome_iff_exists.1 hsome
      have hname : found.name = name := by simpa using List.find?_some hfound
      rw [hfound, List.inj_on_of_nodup_map hnames (List.mem_of_find?_eq_some hfound) hfield
        (hname.trans hentry)]
    rw [checkEntries, hfind]
    show (field.check json >>= fun _ => checkEntries checks rest) = _
    rw [hcheck, ok_bind, ih hrest]

/-- A value comes back from the object of the entries that carry it. -/
theorem Writes.restores (h : fields.Writes entries a)
    (hnames : (fields.checks.map (·.name)).Nodup) :
    fields.decode.Restores (.ofEntries entries) a := by
  have hkeys := hnames.sublist (keys_sublist h.admits)
  refine ⟨?_, .obj hkeys fun entry hmem => ?_, nofun⟩
  · rintro _ ⟨⟩ hdistinct
    rename_i others hsame
    have hproper := hdistinct.isProper
    have hchecked : checkEntries fields.checks others = .ok () :=
      checkEntries_eq_ok hnames fun entry hmem => by
        obtain ⟨written, hget, hentry⟩ :=
          Record.exists_same_of_mem hsame hproper.distinct hmem
        obtain ⟨field, hfield, hadmits⟩ :=
          exists_admits h.admits ((Record.get?_eq_some_iff hkeys).1 hget)
        exact ⟨field, hfield, hadmits.name,
          hadmits.check.read_same entry.2 hentry (hproper.values entry hmem)⟩
    show (checkEntries fields.checks _ >>= fun _ => fields.build _) = _
    rw [hchecked, ok_bind]
    exact h.build others hproper fun slot hslot =>
      get?_written h.admits hnames slot hslot ▸ hsame slot.1.name
  · obtain ⟨field, -, hadmits⟩ := exists_admits h.admits hmem
    exact hadmits.check.distinct

end Objects

end Fields

/-- A word in Pascal case: letters with a capital at the start and no two capitals in a row. -/
def IsPascalCase (word : String) : Prop :=
  word.toList.head?.any Char.isUpper ∧ word.toList.all Char.isAlpha ∧
    word.toList.IsChain fun first second => !(first.isUpper && second.isUpper)

instance : DecidablePred IsPascalCase := fun _ => inferInstanceAs (Decidable (_ ∧ _ ∧ _))

/-- A word of capitals, with underscores between its parts. -/
def IsUpperWord (word : String) : Prop :=
  word ≠ "" ∧ word.toList.all fun c => c.isUpper || c == '_'

instance : DecidablePred IsUpperWord := fun _ => inferInstanceAs (Decidable (_ ∧ _))

/-- Fields have names of their own, in Pascal case. -/
def Fields.IsNamed (fields : Fields α) : Prop :=
  (fields.checks.map (·.name)).Nodup ∧ ∀ name ∈ fields.checks.map (·.name), IsPascalCase name

instance (fields : Fields α) : Decidable fields.IsNamed := inferInstanceAs (Decidable (_ ∧ _))

namespace Decoder

/-- A structure is read back from its wire form, an object with keys in Pascal case in which nothing
is null. -/
structure ReadsBack (read : Decoder α) (write : α → Json) (a : α) : Prop where
  restores : read.Restores (write a) a
  keys : ∃ record : Record, write a = .obj record ∧
    ∀ entry ∈ record, IsPascalCase entry.1 ∧ entry.2 ≠ .null

/-- Each member of an enumeration is read back from its wire form, an upper-case word. -/
structure ReadsWords (read : Decoder α) (write : α → Json) : Prop where
  read_write : ∀ a, read (write a) = .ok a
  words : ∀ a, ∃ word, write a = .str word ∧ IsUpperWord word

variable {read : Decoder α} {write : α → Json} {a : α}

/-- A decoder of literals reads words back that it looks up. -/
theorem readsWords_literal {values : List (String × α)}
    (h : ∀ a, ∃ word, write a = .str word ∧ values.lookup word = some a ∧ IsUpperWord word) :
    (literal values).ReadsWords write where
  read_write a := by
    obtain ⟨word, hwrite, hlookup, -⟩ := h a
    rw [hwrite, literal, hlookup, ofOption]
  words a := by
    obtain ⟨word, hwrite, -, hword⟩ := h a
    exact ⟨word, hwrite, hword⟩

theorem ReadsWords.restores (h : read.ReadsWords write) (a : α) : read.Restores (write a) a := by
  have hread := h.read_write a
  obtain ⟨word, hwrite, -⟩ := h.words a
  rw [hwrite] at hread ⊢
  refine ⟨?_, .str word, nofun⟩
  rintro _ ⟨⟩ -
  exact hread

end Decoder

/-- A structure is read back if its wire form is the object of entries that carry it. -/
theorem Fields.Writes.readsBack {fields : Fields α} {entries : List (Option (String × Json))}
    {write : α → Json} {a : α} (h : fields.Writes entries a) (hnamed : fields.IsNamed)
    (hwrite : write a = .ofEntries entries) : fields.decode.ReadsBack write a := by
  refine ⟨hwrite ▸ h.restores hnamed.1, entries.filterMap id, hwrite, fun entry hmem => ?_⟩
  obtain ⟨field, hfield, hadmits⟩ := exists_admits h.admits hmem
  exact ⟨hadmits.name ▸ hnamed.2 _ (List.mem_map_of_mem hfield), hadmits.check.ne_null⟩

end KeyedStore
