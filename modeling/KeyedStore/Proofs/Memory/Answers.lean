import KeyedStore.Proofs.Memory.Access
import KeyedStore.Proofs.Memory.ItemKeys

/-!
# Answers to page requests

The page that answers a request is a cut of the items it selects: it holds those that the filter
keeps, and its continuation key has the cursor of the last item that was evaluated.
-/
namespace KeyedStore

open Std

/-- An item that meets a key condition has its hash value. -/
theorem KeyCondition.compare_partition_of_accepts {condition : KeyCondition} {schema : KeySchema}
    {item : Item} {key : PrimaryKey} (haccepts : condition.accepts schema item)
    (hkey : schema.keyOf item = .ok key) : compare key.partition condition.partition = .eq := by
  have hvalue := KeyAttribute.value?_of_read (KeySchema.keyOf_eq_ok_iff.1 hkey).1
  have hhash := (Bool.and_eq_true_iff.1 haccepts).1
  have hsame : key.partition.same condition.partition := by simpa [hvalue] using hhash
  exact eq_of_beq hsame

namespace Access

variable {access : Access} {table : MemoryTable} {page : ItemPage} {item : Item}

/-- A filter keeps the items on which it is true. -/
theorem keep_eq_ok {items kept : List Item}
    (h : MemoryStore.keep access.bindings access.filter items = .ok kept) :
    kept = items.filter access.keeps := by
  unfold MemoryStore.keep at h
  cases hfilter : access.filter with
  | none =>
    simp only [hfilter] at h
    cases h
    exact (List.filter_eq_self.2 fun item _ => by simp [keeps, hfilter]).symm
  | some expr =>
    simp only [hfilter] at h
    rw [filterM_eq_ok (mapError_eq_ok_iff.1 h)]
    apply List.filter_congr
    intro item _
    simp [keeps, hfilter]

/-- A continuation key has what the cursor of its item is made of. -/
theorem isKeyOf_continuationKey (access : Access) (item : Item) :
    access.reading.IsKeyOf (access.continuationKey item) item := by
  unfold continuationKey
  split
  case h_1 schema _ => exact (access.reading.isKeyOf_continuationKey item).insertAll_project schema
  case h_2 => exact access.reading.isKeyOf_continuationKey item

/-- Whether the items of a page are looked up where those that the request is about are. -/
structure IsSound (access : Access) (table : MemoryTable) : Prop where
  keys : access.reading.keys = table.storage.keySchema
  partition : ∀ {hash item key}, access.partition = some hash → access.selects item →
    table.storage.keySchema.keyOf item = .ok key → compare key.partition hash = .eq

/-- Nothing that the request is about is looked for elsewhere. -/
theorem IsSound.mem_candidates (h : access.IsSound table) (hstorage : table.storage.IsSound) :
    item ∈ access.candidates table ↔ item ∈ access.matching table := by
  unfold candidates matching
  rw [List.mem_filter, List.mem_filter]
  apply and_congr_left
  intro hselects
  cases hpartition : access.partition with
  | none => rfl
  | some hash =>
    simp only
    rw [hstorage.mem_partitionItems]
    apply and_iff_left_of_imp
    intro hmem
    obtain ⟨key, hkey⟩ := hstorage.exists_keyOf hmem
    exact ⟨key, hkey, h.partition hpartition hselects hkey⟩

theorem IsSound.pairwise_candidates (h : access.IsSound table)
    (hstorage : table.storage.IsSound) :
    (access.candidates table).Pairwise access.reading.keys.Precedes := by
  unfold candidates
  rw [h.keys]
  refine List.Pairwise.filter _ ?_
  split
  case h_1 hash _ => exact (hstorage.partition hash).pairwise_precedes
  case h_2 => exact hstorage.pairwise_allItems

/-- How an answer cuts the items that are left to read: into those that were evaluated and the
rest. -/
structure IsCut (access : Access) (table : MemoryTable) (page : ItemPage)
    (evaluated rest : List Item) : Prop where
  ordered : (evaluated ++ rest).Pairwise access.reading.Before
  mem_iff : ∀ item, item ∈ evaluated ++ rest ↔
    item ∈ access.matching table ∧ access.reading.Reads item
  length : evaluated.length = min access.reading.limit (evaluated ++ rest).length
  items : page.items = evaluated.filter access.keeps
  scannedCount : page.scannedCount = MemoryStore.count evaluated.length
  lastKey : page.lastKey =
    if rest = [] then none else evaluated.getLast?.map access.continuationKey

/-- An answer is a cut of what the request is about. Without the filter it holds all items that were
evaluated. -/
theorem IsSound.answer_eq_ok (h : access.IsSound table) (hstorage : table.storage.IsSound)
    (hanswer : access.answer table = .ok page) : ∃ evaluated rest,
      access.IsCut table page evaluated rest ∧
      ∃ all, access.unfiltered.answer table = .ok all ∧ all.items = evaluated := by
  obtain ⟨cut, hcut, hanswer⟩ := bind_eq_ok_iff.1 hanswer
  obtain ⟨kept, hkept, hanswer⟩ := bind_eq_ok_iff.1 hanswer
  cases hanswer
  have hcut' := mapError_eq_ok_iff.1 hcut
  obtain ⟨rest, hpage⟩ := Reading.page_eq_ok (h.pairwise_candidates hstorage) hcut'
  refine ⟨cut.items, rest, ⟨hpage.ordered, fun item => ?_, hpage.length, keep_eq_ok hkept, rfl, ?_⟩,
    ?_⟩
  · rw [hpage.mem_iff, h.mem_candidates hstorage]
  · show access.lastKey cut = _
    unfold lastKey continuationKey
    rw [hpage.lastKey]
    by_cases hrest : rest = [] <;> cases cut.items.getLast? <;> cases access.scanned <;>
      simp [hrest]
  · have hall : access.unfiltered.answer table =
        .ok ⟨cut.items, MemoryStore.count cut.items.length, MemoryStore.count cut.items.length,
          access.lastKey cut⟩ := by
      unfold answer
      rw [show access.unfiltered.candidates table = access.candidates table from rfl,
        show access.unfiltered.reading = access.reading from rfl, hcut]
      rfl
    exact ⟨_, hall, rfl⟩

end Access

namespace PageRequest

variable {request : PageRequest} {store : MemoryStore} {table : MemoryTable} {pageSize : Nat}
  {access : Access} {page : ItemPage}

/-- The items that a store evaluates for a page, whether or not the filter keeps them. -/
def evaluated (request : PageRequest) (store : MemoryStore) : List Item :=
  ((request.unfiltered.answer store).toOption.map (·.items)).getD []

/-- The items of a table that a query looks for are in the partition of the key condition. -/
theorem isSound_of_access (h : request.access table pageSize = .ok access) :
    access.IsSound table := by
  refine ⟨(reading_of_access h).1, fun {hash item key} hpartition hselects hkey => ?_⟩
  cases request with
  | query request =>
    obtain ⟨limit, schema, keyExpr, filter, condition, -, hschema, -, -, -, rfl⟩ :=
      access_query_eq_ok_iff.1 h
    cases hindex : request.index with
    | some index => simp [Access.ofQuery, hindex] at hpartition
    | none =>
      rw [hindex] at hschema
      cases hschema
      obtain rfl : condition.partition = hash := by simpa [Access.ofQuery, hindex] using hpartition
      exact KeyCondition.compare_partition_of_accepts hselects hkey
  | scan request =>
    obtain ⟨limit, index, filter, -, -, -, rfl⟩ := access_scan_eq_ok_iff.1 h
    cases hpartition

/-- A page of a sound store is a cut of the items that the request is about. -/
theorem answer_eq_ok (hstore : store.IsSound) (h : request.answer store = .ok page) :
    ∃ table access rest, store.table request.table = .ok table ∧
      request.access table store.config.pageSize = .ok access ∧
      access.IsCut table page (request.evaluated store) rest := by
  rw [answer_eq] at h
  obtain ⟨table, htable, h⟩ := bind_eq_ok_iff.1 h
  obtain ⟨access, haccess, h⟩ := bind_eq_ok_iff.1 h
  have hstorage := hstore.storage_of_table htable
  obtain ⟨evaluated, rest, hcut, all, hall, rfl⟩ :=
    (isSound_of_access haccess).answer_eq_ok hstorage h
  refine ⟨table, access, rest, htable, haccess, ?_⟩
  have hevaluated : request.evaluated store = all.items := by
    have hname : request.unfiltered.table = request.table := by cases request <;> rfl
    unfold PageRequest.evaluated
    rw [answer_eq, hname, htable, ok_bind, access_unfiltered haccess, ok_bind, hall]
    rfl
  rwa [hevaluated]

end PageRequest

end KeyedStore
