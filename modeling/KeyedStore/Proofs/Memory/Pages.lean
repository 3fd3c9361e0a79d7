import KeyedStore.Proofs.Memory.Storage
import KeyedStore.Proofs.StableSort

/-!
# Cuts of a reading

A page is a cut of the items that are read, in the order of their cursors: it starts after the key
to resume after, and its continuation key has the same cursor as its last item.
-/
namespace KeyedStore

open Std

namespace KeySchema

variable {schema : KeySchema} {item other : Item}

/-- The projection of an item has its key attributes. -/
theorem get?_project (schema : KeySchema) (item : Item) (name : String) :
    (schema.project item).get? name = if name ∈ schema.names then item.get? name else none := by
  let entries : Item := schema.names.filterMap fun name =>
    (item.get? name).map fun value => (name, value)
  have hentries : ∀ entry ∈ entries, item.get? entry.1 = some entry.2 := by
    intro entry hmem
    obtain ⟨name, -, hname⟩ := List.mem_filterMap.1 hmem
    obtain ⟨value, hvalue, rfl⟩ := Option.map_eq_some_iff.1 hname
    exact hvalue
  have hkeys : entries.contains name ↔ name ∈ schema.names ∧ (item.get? name).isSome := by
    rw [OrderedMap.contains_iff]
    simp only [OrderedMap.keys, entries, List.mem_map, List.mem_filterMap]
    constructor
    · rintro ⟨entry, ⟨name, hname, hentry⟩, rfl⟩
      obtain ⟨value, hvalue, rfl⟩ := Option.map_eq_some_iff.1 hentry
      exact ⟨hname, by simp [hvalue]⟩
    · rintro ⟨hname, hsome⟩
      obtain ⟨value, hvalue⟩ := Option.isSome_iff_exists.1 hsome
      exact ⟨(name, value), ⟨name, hname, by simp [hvalue]⟩, rfl⟩
  show (OrderedMap.insertAll [] entries).get? name = _
  rw [OrderedMap.get?_insertAll_of_forall hentries]
  by_cases hname : name ∈ schema.names
  · cases hget : item.get? name <;> simp [hkeys, hname, hget, OrderedMap.get?]
  · simp [hkeys, hname, OrderedMap.get?]

/-- The key of an item goes by its key attributes. -/
theorem keyOf_congr (h : ∀ name ∈ schema.names, item.get? name = other.get? name) :
    schema.keyOf item = schema.keyOf other := by
  have hread : ∀ key ∈ schema.attributes, key.read item = key.read other := by
    intro key hkey
    unfold KeyAttribute.read
    rw [h key.name (List.mem_map.2 ⟨key, hkey, rfl⟩)]
  unfold keyOf
  rw [hread schema.partition List.mem_cons_self]
  cases hsort : schema.sort with
  | none => rfl
  | some key => simp only [hread key (by simp [attributes, hsort])]

end KeySchema

namespace Reading

variable {reading : Reading} {items : List Item} {item a b c : Item} {page : Page}

/-- The cursor of an item in a reading. -/
def cursor (reading : Reading) (item : Item) : Except StorageError Cursor :=
  Cursor.ofItem reading.keys reading.indexSort item

/-- Whether one item is read before another one. -/
def Before (reading : Reading) (a b : Item) : Prop :=
  ∃ x y, reading.cursor a = .ok x ∧ reading.cursor b = .ok y ∧ reading.isAfter y x = true

/-- Whether the key to resume after, if there is one, comes before an item. -/
def Reads (reading : Reading) (item : Item) : Prop :=
  reading.startKey.isEmpty ∨ reading.Before reading.startKey item

theorem Before.trans (h : reading.Before a b) (h' : reading.Before b c) : reading.Before a c := by
  obtain ⟨x, y, hx, hy, hxy⟩ := h
  obtain ⟨y', z, hy', hz, hyz⟩ := h'
  obtain rfl : y = y' := by simpa [hy] using hy'
  refine ⟨x, z, hx, hz, ?_⟩
  unfold isAfter at hxy hyz ⊢
  split at hxy
  case isTrue hforward =>
    simp only [hforward, if_true, Ordering.isGT_iff_eq_gt] at hxy hyz ⊢
    exact TransCmp.gt_trans hyz hxy
  case isFalse hforward =>
    simp only [hforward, Bool.false_eq_true, if_false, Ordering.isLT_iff_eq_lt] at hxy hyz ⊢
    exact TransCmp.lt_trans hyz hxy

theorem not_before_self : ¬ reading.Before a a := by
  rintro ⟨x, y, hx, hy, hxy⟩
  obtain rfl : x = y := by simpa [hx] using hy
  simp [isAfter, ReflCmp.compare_self] at hxy

theorem ne_of_before (h : reading.Before a b) : a ≠ b := by
  rintro rfl
  exact not_before_self h

/-- The key in the table is part of a cursor. -/
theorem keyOf_of_cursor {x : Cursor} (h : reading.cursor item = .ok x) :
    reading.keys.keyOf item = .ok x.key := by
  unfold cursor Cursor.ofItem at h
  simp only at h
  split at h <;>
  · obtain ⟨index, -, h⟩ := bind_eq_ok_iff.1 h
    obtain ⟨key, hkey, h⟩ := bind_eq_ok_iff.1 h
    cases h
    exact hkey

theorem Reads.trans (h : reading.Reads a) (h' : reading.Before a b) : reading.Reads b :=
  h.imp_right fun hbefore => hbefore.trans h'

/-- Items with keys in the table are told apart by their cursors. -/
theorem compare_cursor_ne {x y : Cursor} (h : reading.keys.Precedes a b)
    (hx : reading.cursor a = .ok x) (hy : reading.cursor b = .ok y) : compare x y ≠ .eq := by
  obtain ⟨ka, kb, hka, hkb, hlt⟩ := h
  obtain rfl : ka = x.key := by simpa [hka] using keyOf_of_cursor hx
  obtain rfl : kb = y.key := by simpa [hkb] using keyOf_of_cursor hy
  show Cursor.order x y ≠ .eq
  simp [Cursor.order, hlt]

/-- Every item that is located stands beside its cursor. -/
theorem locate_eq_ok {located : List (Cursor × Item)} (h : reading.locate items = .ok located) :
    located.map (·.2) = items ∧ ∀ entry ∈ located, reading.cursor entry.2 = .ok entry.1 := by
  induction items generalizing located with
  | nil =>
    cases h
    simp
  | cons item rest ih =>
    rw [locate, List.mapM_cons] at h
    obtain ⟨entry, hentry, h⟩ := bind_eq_ok_iff.1 h
    obtain ⟨cursor, hcursor, hentry⟩ := bind_eq_ok_iff.1 hentry
    obtain ⟨entries, hentries, h⟩ := bind_eq_ok_iff.1 h
    cases hentry
    cases h
    obtain ⟨hitems, hcursors⟩ := ih hentries
    refine ⟨by simp [hitems], ?_⟩
    intro entry hmem
    rcases List.mem_cons.1 hmem with rfl | hmem
    · exact hcursor
    · exact hcursors entry hmem

theorem arrange_perm (reading : Reading) (located : List (Cursor × Item)) :
    (reading.arrange located).Perm located := by
  unfold arrange
  simp only
  split
  · exact stableSort_perm _ located
  · exact (List.reverse_perm _).trans (stableSort_perm _ located)

/-- Located items that differ in their cursors are arranged as they are read. -/
theorem pairwise_arrange {located : List (Cursor × Item)}
    (h : located.Pairwise fun a b => compare a.1 b.1 ≠ .eq) :
    (reading.arrange located).Pairwise fun a b => reading.isAfter b.1 a.1 := by
  have hsorted := pairwise_lt_stableSort Prod.fst h
  unfold arrange isAfter
  simp only
  split
  case isTrue =>
    exact hsorted.imp fun hlt => by simp [OrientedCmp.gt_of_lt hlt]
  case isFalse =>
    exact List.pairwise_reverse.2 (hsorted.imp fun hlt => by simp [hlt])

/-- How a page cuts the items that are left to read: into the items of the page and the rest. -/
structure IsPage (reading : Reading) (items : List Item) (page : Page) (rest : List Item) :
    Prop where
  ordered : (page.items ++ rest).Pairwise reading.Before
  mem_iff : ∀ item, item ∈ page.items ++ rest ↔ item ∈ items ∧ reading.Reads item
  length : page.items.length = min reading.limit (page.items ++ rest).length
  lastKey : page.lastKey =
    if rest = [] then none else page.items.getLast?.map reading.continuationKey

/-- What is left to read after the key to resume after. -/
theorem resume_eq_ok {arranged remaining : List (Cursor × Item)}
    (hcursors : ∀ entry ∈ arranged, reading.cursor entry.2 = .ok entry.1)
    (h : reading.resume arranged = .ok remaining) : remaining.Sublist arranged ∧
      ∀ entry, entry ∈ remaining ↔ entry ∈ arranged ∧ reading.Reads entry.2 := by
  unfold resume at h
  split at h
  case isTrue hempty =>
    cases h
    exact ⟨.refl _, fun entry => by simp [Reads, hempty]⟩
  case isFalse hempty =>
    obtain ⟨start, hstart, h⟩ := bind_eq_ok_iff.1 h
    cases h
    refine ⟨List.filter_sublist, ?_⟩
    intro entry
    rw [List.mem_filter]
    apply and_congr_right
    intro hmem
    have hentry := hcursors entry hmem
    constructor
    · exact fun hafter => .inr ⟨start, entry.1, hstart, hentry, hafter⟩
    · rintro (h | ⟨x, y, hx, hy, hafter⟩)
      · exact absurd h hempty
      · obtain rfl : start = x := by simpa [cursor, hstart] using hx
        obtain rfl : entry.1 = y := by simpa [hentry] using hy
        exact hafter

/-- A page is a cut of the items that are left to read. -/
theorem page_eq_ok (hitems : items.Pairwise reading.keys.Precedes)
    (h : reading.page items = .ok page) : ∃ rest, reading.IsPage items page rest := by
  obtain ⟨located, hlocated, h⟩ := bind_eq_ok_iff.1 h
  obtain ⟨remaining, hremaining, h⟩ := bind_eq_ok_iff.1 h
  cases h
  obtain ⟨hmap, hcursors⟩ := locate_eq_ok hlocated
  have hperm := reading.arrange_perm located
  have hcursors' : ∀ entry ∈ reading.arrange located, reading.cursor entry.2 = .ok entry.1 :=
    fun entry hmem => hcursors entry (hperm.mem_iff.1 hmem)
  obtain ⟨hsublist, hmem⟩ := resume_eq_ok hcursors' hremaining
  have hne : located.Pairwise fun a b => compare a.1 b.1 ≠ .eq := by
    have hlocated : located.Pairwise fun a b => reading.keys.Precedes a.2 b.2 := by
      rw [← hmap] at hitems
      exact List.pairwise_map.1 hitems
    exact hlocated.imp_of_mem fun ha hb hlt =>
      compare_cursor_ne hlt (hcursors _ ha) (hcursors _ hb)
  have hordered : (remaining.map (·.2)).Pairwise reading.Before := by
    refine List.pairwise_map.2 (List.Pairwise.imp_of_mem ?_
      ((pairwise_arrange hne).sublist hsublist))
    intro x y hx hy hafter
    exact ⟨x.1, y.1, hcursors' x (hsublist.mem hx), hcursors' y (hsublist.mem hy), hafter⟩
  refine ⟨(remaining.map (·.2)).drop reading.limit, ?_, ?_, ?_, ?_⟩
  · simpa only [List.take_append_drop] using hordered
  · intro item
    simp only [List.take_append_drop, List.mem_map]
    constructor
    · rintro ⟨entry, hentry, rfl⟩
      obtain ⟨harranged, hreads⟩ := (hmem entry).1 hentry
      rw [← hmap]
      exact ⟨List.mem_map.2 ⟨entry, hperm.mem_iff.1 harranged, rfl⟩, hreads⟩
    · rintro ⟨hitem, hreads⟩
      rw [← hmap] at hitem
      obtain ⟨entry, hentry, rfl⟩ := List.mem_map.1 hitem
      exact ⟨entry, (hmem entry).2 ⟨hperm.mem_iff.2 hentry, hreads⟩, rfl⟩
  · simp only [List.take_append_drop, List.length_take]
  · simp only [List.drop_eq_nil_iff]
    by_cases hlimit : reading.limit < (remaining.map (·.2)).length
    · rw [if_pos hlimit, if_neg (by omega)]
    · rw [if_neg hlimit, if_pos (by omega)]

/-- Items that all have cursors are located. -/
theorem exists_locate (h : ∀ item ∈ items, ∃ x, reading.cursor item = .ok x) :
    ∃ located, reading.locate items = .ok located := by
  induction items with
  | nil => exact ⟨[], rfl⟩
  | cons item rest ih =>
    obtain ⟨⟨x, hx⟩, hrest⟩ := List.forall_mem_cons.1 h
    obtain ⟨located, hlocated⟩ := ih hrest
    refine ⟨(x, item) :: located, ?_⟩
    rw [locate, List.mapM_cons]
    exact bind_eq_ok_iff.2 ⟨(x, item), bind_eq_ok_iff.2 ⟨x, hx, rfl⟩,
      bind_eq_ok_iff.2 ⟨located, hlocated, rfl⟩⟩

/-- A page is cut from items that all have cursors, after a key that has one. -/
theorem exists_page (hitems : ∀ item ∈ items, ∃ x, reading.cursor item = .ok x)
    (hstart : reading.startKey = [] ∨ ∃ x, reading.cursor reading.startKey = .ok x) :
    ∃ page, reading.page items = .ok page := by
  obtain ⟨located, hlocated⟩ := exists_locate hitems
  obtain ⟨remaining, hremaining⟩ : ∃ remaining,
      reading.resume (reading.arrange located) = .ok remaining := by
    unfold resume
    split
    case isTrue => exact ⟨_, rfl⟩
    case isFalse hempty =>
      rcases hstart with hstart | ⟨x, hx⟩
      · simp [hstart] at hempty
      · exact ⟨_, bind_eq_ok_iff.2 ⟨x, hx, rfl⟩⟩
  exact ⟨_, bind_eq_ok_iff.2 ⟨located, hlocated,
    bind_eq_ok_iff.2 ⟨remaining, hremaining, rfl⟩⟩⟩

/-- Whether a key has what the cursor of an item is made of. -/
structure IsKeyOf (reading : Reading) (key item : Item) : Prop where
  keys : ∀ name ∈ reading.keys.names, key.get? name = item.get? name
  sort : ∀ attr, reading.indexSort = some attr → key.get? attr.name = item.get? attr.name

theorem IsKeyOf.cursor_eq {key : Item} (h : reading.IsKeyOf key item) :
    reading.cursor key = reading.cursor item := by
  have hranged : (reading.indexSort.bind fun attr =>
      (key.get? attr.name).map fun value => (attr, value)) =
      reading.indexSort.bind fun attr => (item.get? attr.name).map fun value => (attr, value) := by
    cases hindex : reading.indexSort with
    | none => rfl
    | some attr => simp [h.sort attr hindex]
  unfold cursor Cursor.ofItem
  rw [KeySchema.keyOf_congr h.keys]
  simp only [hranged]

/-- The key attributes of an index may be added to a key. -/
theorem get?_insertAll_project (key : Item) (schema : KeySchema) (item : Item) (name : String) :
    (OrderedMap.insertAll key (schema.project item)).get? name =
      (if name ∈ schema.names then item.get? name else none).or (key.get? name) := by
  have hascending : (schema.project item).IsAscending := OrderedMap.isAscending_ofList
  rw [hascending.get?_insertAll, KeySchema.get?_project]

theorem IsKeyOf.insertAll_project {key : Item} (h : reading.IsKeyOf key item)
    (schema : KeySchema) :
    reading.IsKeyOf (OrderedMap.insertAll key (schema.project item)) item := by
  constructor
  · intro name hname
    rw [get?_insertAll_project, h.keys name hname]
    split <;> cases item.get? name <;> rfl
  · intro attr hattr
    rw [get?_insertAll_project, h.sort attr hattr]
    split <;> cases item.get? attr.name <;> rfl

/-- A continuation key has what the cursor of its item is made of. -/
theorem isKeyOf_continuationKey (reading : Reading) (item : Item) :
    reading.IsKeyOf (reading.continuationKey item) item := by
  unfold continuationKey
  constructor
  · intro name hname
    cases reading.index with
    | none => simp [KeySchema.get?_project, hname]
    | some index =>
      simp only [get?_insertAll_project, KeySchema.get?_project, hname, if_true]
      split <;> cases item.get? name <;> rfl
  · intro attr hattr
    cases hindex : reading.index with
    | none => simp [indexSort, hindex] at hattr
    | some index =>
      have hsort : index.sort = some attr := by simpa [indexSort, hindex] using hattr
      have hname : attr.name ∈ index.names := by
        simp [KeySchema.names, KeySchema.attributes, hsort]
      simp only [get?_insertAll_project, KeySchema.get?_project, hname, if_true]
      split <;> cases item.get? attr.name <;> rfl

/-- An item with a cursor is not empty. -/
theorem ne_nil_of_cursor {x : Cursor} (h : reading.cursor item = .ok x) : item ≠ [] := by
  rintro rfl
  obtain ⟨partition, hpartition, -⟩ := bind_eq_ok_iff.1 (keyOf_of_cursor h)
  cases hpartition

end Reading

end KeyedStore
