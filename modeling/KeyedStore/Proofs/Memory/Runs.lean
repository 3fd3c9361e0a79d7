import KeyedStore.Proofs.Memory.Answers

/-!
# Paged readings

A reading asks for one page after another, each after the key that ends the one before it, while
other requests change the store in between. What the pages evaluate is read in the order of cursors,
so nothing is read twice, and nothing that stays is left out.
-/
namespace KeyedStore

open Std

namespace PageRequest

/-- How many pages of a size hold a number of items; one page does for no items. -/
def pageCount (items limit : Nat) : Nat := max 1 ((items + limit - 1) / limit)

theorem pageCount_of_le {items limit : Nat} (hlimit : 1 ≤ limit) (h : items ≤ limit) :
    pageCount items limit = 1 := by
  have hfew : (items + limit - 1) / limit < 2 := Nat.div_lt_of_lt_mul (by omega)
  unfold pageCount
  omega

/-- A full page before other ones. -/
theorem pageCount_add {items limit : Nat} (hlimit : 1 ≤ limit) (h : 1 ≤ items) :
    pageCount (limit + items) limit = pageCount items limit + 1 := by
  have hdiv : (limit + items + limit - 1) / limit = (items + limit - 1) / limit + 1 := by
    rw [← Nat.add_div_right _ hlimit]
    exact congrArg (· / limit) (by omega)
  have hpos : 0 < (items + limit - 1) / limit := Nat.div_pos (by omega) hlimit
  unfold pageCount
  omega

theorem pageCount_le (items : Nat) {limit : Nat} (hlimit : 1 ≤ limit) :
    pageCount items limit ≤ items + 1 := by
  have hitems : items ≤ limit * items := Nat.le_mul_of_pos_left items hlimit
  have hdiv : (items + limit - 1) / limit ≤ items + 1 :=
    Nat.div_le_of_le_mul (by rw [Nat.mul_add]; omega)
  unfold pageCount
  omega

/-- Whether an item of a store is one that a request is about. -/
def Matches (request : PageRequest) (store : MemoryStore) (item : Item) : Prop :=
  ∃ table access, store.table request.table = .ok table ∧
    request.access table store.config.pageSize = .ok access ∧ item ∈ access.matching table

/-- A page that was read: the store and the request at that time, and the answer. -/
structure Turn where
  store : MemoryStore
  request : PageRequest
  page : ItemPage

/-- The items that were evaluated for a page. -/
def Turn.evaluated (turn : Turn) : List Item := turn.request.evaluated turn.store

/-- A reading from a store on: each page is asked for after the key that ends the one before it, and
the last one ends with none. Any requests may come in between two pages. -/
inductive Run : PageRequest → MemoryStore → List Turn → Prop where
  | last {request : PageRequest} {store : MemoryStore} {page : ItemPage}
      (answered : request.answer store = .ok page) (complete : page.lastKey = none) :
      Run request store [⟨store, request, page⟩]
  | next {request : PageRequest} {store after : MemoryStore} {page : ItemPage} {key : Item}
      {turns : List Turn} (answered : request.answer store = .ok page)
      (more : page.lastKey = some key) (changed : store.Reaches after)
      (rest : Run (request.after key) after turns) :
      Run request store (⟨store, request, page⟩ :: turns)

variable {request : PageRequest} {store after : MemoryStore} {table : MemoryTable}
  {access : Access} {turns : List Turn} {item key : Item} {page : ItemPage} {rest : List Item}

/-- The items evaluated on the pages of a reading. -/
def evaluatedItems (turns : List Turn) : List Item := turns.flatMap Turn.evaluated

/-- The items returned on the pages of a reading. -/
def returnedItems (turns : List Turn) : List Item := turns.flatMap (·.page.items)

/-- What the pages of a reading have to do with the stores that they were read from. -/
structure IsCovering (request : PageRequest) (access : Access) (turns : List Turn) : Prop where
  ordered : (evaluatedItems turns).Pairwise access.reading.Before
  reads : ∀ item ∈ evaluatedItems turns, access.reading.Reads item
  found : ∀ turn ∈ turns, ∀ item ∈ turn.evaluated, request.Matches turn.store item
  complete : ∀ item, (∀ turn ∈ turns, request.Matches turn.store item) →
    access.reading.Reads item → item ∈ evaluatedItems turns
  returned : returnedItems turns = (evaluatedItems turns).filter access.keeps

@[simp]
theorem table_after (key : Item) (request : PageRequest) :
    (request.after key).table = request.table := by
  cases request <;> rfl

@[simp]
theorem after_after (first second : Item) (request : PageRequest) :
    (request.after first).after second = request.after second := by
  cases request <;> rfl

/-- Tables are resolved alike before and after other requests. -/
theorem access_of_keeps (hkeeps : store.Keeps after)
    (htable : store.table request.table = .ok table)
    (haccess : request.access table store.config.pageSize = .ok access) :
    ∃ other, after.table request.table = .ok other ∧
      request.access other after.config.pageSize = .ok access := by
  obtain ⟨other, hother, hlayout⟩ := hkeeps.tables (MemoryStore.table_eq_ok_iff.1 htable)
  exact ⟨other, MemoryStore.table_eq_ok_iff.2 hother, by
    rw [access_congr hlayout, hkeeps.config, haccess]⟩

theorem matches_iff (htable : store.table request.table = .ok table)
    (haccess : request.access table store.config.pageSize = .ok access) :
    request.Matches store item ↔ item ∈ access.matching table := by
  constructor
  · rintro ⟨table', access', htable', haccess', hitem⟩
    rw [htable] at htable'
    cases htable'
    rw [haccess] at haccess'
    cases haccess'
    exact hitem
  · exact fun hitem => ⟨table, access, htable, haccess, hitem⟩

theorem matches_after (h : request.Matches store item) (key : Item) :
    (request.after key).Matches store item := by
  obtain ⟨table, access, htable, haccess, hitem⟩ := h
  exact ⟨table, access.after key, by rwa [table_after], access_after key haccess, hitem⟩

/-- A request for another page is about the same items. -/
theorem matches_after_iff :
    (request.after key).Matches store item ↔ request.Matches store item := by
  refine ⟨?_, fun h => matches_after h key⟩
  intro h
  have hback : (request.after key).after request.startKey = request := by cases request <;> rfl
  exact hback ▸ matches_after h request.startKey

end PageRequest

namespace Access

variable {access : Access} {table : MemoryTable} {page : ItemPage} {evaluated rest : List Item}
  {key item : Item}

/-- A page without a continuation key leaves nothing to read. -/
theorem IsCut.rest_eq_nil (h : access.IsCut table page evaluated rest)
    (hlimit : 1 ≤ access.reading.limit) (hpage : page.lastKey = none) : rest = [] := by
  cases rest with
  | nil => rfl
  | cons first others =>
    have hlength := h.length
    rw [List.length_append, List.length_cons] at hlength
    have hne : evaluated ≠ [] := by
      rintro rfl
      rw [List.length_nil] at hlength
      omega
    have hlast := h.lastKey
    rw [hpage, if_neg (List.cons_ne_nil _ _), List.getLast?_eq_some_getLast hne] at hlast
    cases hlast

/-- A continuation key stands at the last item of its page, which is before the rest. -/
theorem IsCut.exists_last (h : access.IsCut table page evaluated rest)
    (hpage : page.lastKey = some key) : rest ≠ [] ∧ ∃ before last,
      evaluated = before ++ [last] ∧ access.reading.IsKeyOf key last := by
  have hlast := h.lastKey
  rw [hpage] at hlast
  split at hlast
  case isTrue => cases hlast
  case isFalse hrest =>
    obtain ⟨last, hget, hkey⟩ := Option.map_eq_some_iff.1 hlast.symm
    obtain ⟨before, rfl⟩ := List.getLast?_eq_some_iff.1 hget
    exact ⟨hrest, before, last, rfl, hkey ▸ access.isKeyOf_continuationKey last⟩

/-- The key of an item that others follow is not empty. -/
theorem IsCut.isEmpty_eq_false {before : List Item} {last : Item}
    (h : access.IsCut table page (before ++ [last]) rest) (hrest : rest ≠ [])
    (hkey : access.reading.IsKeyOf key last) : key.isEmpty = false := by
  obtain ⟨first, others, rfl⟩ := List.exists_cons_of_ne_nil hrest
  have hordered := (List.pairwise_append.1 h.ordered).2.2
  obtain ⟨x, y, hx, -, -⟩ := hordered last (by simp) first List.mem_cons_self
  have hcursor : access.reading.cursor key = .ok x := hkey.cursor_eq.trans hx
  simpa using access.reading.ne_nil_of_cursor hcursor

/-- Reading resumes after the last item of the page before. -/
theorem IsCut.reads_after_iff {before : List Item} {last : Item}
    (h : access.IsCut table page (before ++ [last]) rest) (hrest : rest ≠ [])
    (hkey : access.reading.IsKeyOf key last) :
    (access.after key).reading.Reads item ↔ access.reading.Before last item := by
  have hnonempty := h.isEmpty_eq_false hrest hkey
  have hiff : access.reading.Before key item ↔ access.reading.Before last item := by
    unfold Reading.Before
    rw [hkey.cursor_eq]
  rw [← hiff]
  exact or_iff_right (by simp [after, hnonempty])

/-- What is left to read after a page is the rest of its cut. -/
theorem IsCut.mem_rest_iff {before : List Item} {last : Item}
    (h : access.IsCut table page (before ++ [last]) rest) (hrest : rest ≠ [])
    (hkey : access.reading.IsKeyOf key last) :
    item ∈ rest ↔ item ∈ access.matching table ∧ (access.after key).reading.Reads item := by
  obtain ⟨hevaluated, -, hbefore⟩ := List.pairwise_append.1 h.ordered
  have hlast := (List.pairwise_append.1 hevaluated).2.2
  rw [h.reads_after_iff hrest hkey]
  constructor
  · intro hitem
    have hmem := (h.mem_iff item).1 (List.mem_append_right _ hitem)
    exact ⟨hmem.1, hbefore last (by simp) item hitem⟩
  · rintro ⟨hmatching, hafter⟩
    have hreads := ((h.mem_iff last).1 (by simp)).2
    rcases List.mem_append.1 ((h.mem_iff item).2 ⟨hmatching, hreads.trans hafter⟩) with hmem | hmem
    · rcases List.mem_append.1 hmem with hmem | hmem
      · exact absurd ((hlast item hmem last (by simp)).trans hafter) Reading.not_before_self
      · obtain rfl := List.mem_singleton.1 hmem
        exact absurd hafter Reading.not_before_self
    · exact hmem

end Access

namespace PageRequest

variable {request : PageRequest} {store after : MemoryStore} {table : MemoryTable}
  {access : Access} {turns : List Turn} {item key : Item} {page : ItemPage} {rest : List Item}

/-- The last page covers what is left to read. -/
theorem isCovering_last (htable : store.table request.table = .ok table)
    (haccess : request.access table store.config.pageSize = .ok access)
    (hcut : access.IsCut table page (request.evaluated store) []) :
    request.IsCovering access [⟨store, request, page⟩] := by
  have hmem := hcut.mem_iff
  simp only [List.append_nil] at hmem
  refine ⟨?_, ?_, ?_, ?_, ?_⟩
  · simpa [evaluatedItems, Turn.evaluated] using hcut.ordered
  · intro item hitem
    exact ((hmem item).1 (by simpa [evaluatedItems, Turn.evaluated] using hitem)).2
  · intro turn hturn item hitem
    obtain rfl := List.mem_singleton.1 hturn
    exact (matches_iff htable haccess).2 ((hmem item).1 hitem).1
  · intro item hmatches hreads
    have hmatching := (matches_iff htable haccess).1 (hmatches _ List.mem_cons_self)
    simpa [evaluatedItems, Turn.evaluated] using (hmem item).2 ⟨hmatching, hreads⟩
  · simpa [returnedItems, evaluatedItems, Turn.evaluated] using hcut.items

/-- A page and the pages after its key cover what is left to read together. -/
theorem isCovering_next {before : List Item} {last : Item}
    (htable : store.table request.table = .ok table)
    (haccess : request.access table store.config.pageSize = .ok access)
    (hcut : access.IsCut table page (request.evaluated store) rest)
    (hevaluated : request.evaluated store = before ++ [last]) (hrest : rest ≠ [])
    (hkey : access.reading.IsKeyOf key last)
    (hturns : (request.after key).IsCovering (access.after key) turns) :
    request.IsCovering access (⟨store, request, page⟩ :: turns) := by
  have hitems : evaluatedItems (⟨store, request, page⟩ :: turns) =
      request.evaluated store ++ evaluatedItems turns := List.flatMap_cons
  have hreturned : returnedItems (⟨store, request, page⟩ :: turns) =
      page.items ++ returnedItems turns := List.flatMap_cons
  have hordered := List.pairwise_append.1 hcut.ordered
  rw [hevaluated] at hcut hordered
  have hreads : ∀ {item}, (access.after key).reading.Reads item ↔ access.reading.Before last item :=
    hcut.reads_after_iff hrest hkey
  have hlast : access.reading.Reads last := ((hcut.mem_iff last).1 (by simp)).2
  refine ⟨?_, ?_, ?_, ?_, ?_⟩
  · rw [hitems, hevaluated]
    refine List.pairwise_append.2 ⟨hordered.1, hturns.ordered, ?_⟩
    intro a ha b hb
    have hb := hreads.1 (hturns.reads b hb)
    rcases List.mem_append.1 ha with ha | ha
    · exact ((List.pairwise_append.1 hordered.1).2.2 a ha last (by simp)).trans hb
    · obtain rfl := List.mem_singleton.1 ha
      exact hb
  · intro item hitem
    rw [hitems, hevaluated] at hitem
    rcases List.mem_append.1 hitem with hitem | hitem
    · exact ((hcut.mem_iff item).1 (List.mem_append_left _ hitem)).2
    · exact hlast.trans (hreads.1 (hturns.reads item hitem))
  · intro turn hturn item hitem
    rcases List.mem_cons.1 hturn with rfl | hturn
    · rw [Turn.evaluated, hevaluated] at hitem
      exact (matches_iff htable haccess).2
        ((hcut.mem_iff item).1 (List.mem_append_left _ hitem)).1
    · exact matches_after_iff.1 (hturns.found turn hturn item hitem)
  · intro item hmatch hitem
    have hmatching := (matches_iff htable haccess).1 (hmatch _ List.mem_cons_self)
    rw [hitems, hevaluated]
    rcases List.mem_append.1 ((hcut.mem_iff item).2 ⟨hmatching, hitem⟩) with hmem | hmem
    · exact List.mem_append_left _ hmem
    · refine List.mem_append_right _ (hturns.complete item (fun turn hturn => ?_) ?_)
      · exact matches_after_iff.2 (hmatch turn (List.mem_cons_of_mem _ hturn))
      · exact ((hcut.mem_rest_iff hrest hkey).1 hmem).2
  · rw [hreturned, hcut.items, hturns.returned, hitems, hevaluated]
    exact (List.filter_append _ _).symm

/-- The page that answers a request is a cut of what its access is about. -/
theorem exists_cut (hstore : store.IsSound) (htable : store.table request.table = .ok table)
    (haccess : request.access table store.config.pageSize = .ok access)
    (h : request.answer store = .ok page) :
    ∃ rest, access.IsCut table page (request.evaluated store) rest := by
  obtain ⟨table', access', rest, htable', haccess', hcut⟩ := answer_eq_ok hstore h
  obtain rfl : table = table' := by simpa [htable] using htable'
  obtain rfl : access = access' := by simpa [haccess] using haccess'
  exact ⟨rest, hcut⟩

/-- The pages of a reading cover what there is to read. -/
theorem Run.isCovering (run : Run request store turns) : ∀ {access table}, store.IsSound →
    store.table request.table = .ok table →
    request.access table store.config.pageSize = .ok access → 1 ≤ access.reading.limit →
    request.IsCovering access turns := by
  induction run with
  | last answered complete =>
    intro access table hstore htable haccess hlimit
    obtain ⟨rest, hcut⟩ := exists_cut hstore htable haccess answered
    obtain rfl := hcut.rest_eq_nil hlimit complete
    exact isCovering_last htable haccess hcut
  | @next request store after page key turns answered more changed _ ih =>
    intro access table hstore htable haccess hlimit
    obtain ⟨rest, hcut⟩ := exists_cut hstore htable haccess answered
    obtain ⟨hrest, before, last, hevaluated, hkey⟩ := hcut.exists_last more
    obtain ⟨other, hother, haccess'⟩ := access_of_keeps (changed.keeps hstore) htable haccess
    have hturns := ih (changed.isSound hstore) (by rwa [table_after]) (access_after key haccess')
      hlimit
    exact isCovering_next htable haccess hcut hevaluated hrest hkey hturns

/-- A page may hold at least one item. -/
theorem one_le_limit {limit : Option Int} {pageSize most : Nat} (hsize : 1 ≤ pageSize)
    (h : MemoryStore.pageLimit limit pageSize = .ok most) : 1 ≤ most := by
  unfold MemoryStore.pageLimit at h
  split at h
  case h_1 =>
    cases h
    exact hsize
  case h_2 n =>
    split at h
    case isTrue => cases h
    case isFalse =>
      cases h
      omega

theorem limit_le_pageSize {limit : Option Int} {pageSize most : Nat}
    (h : MemoryStore.pageLimit limit pageSize = .ok most) : most ≤ pageSize := by
  unfold MemoryStore.pageLimit at h
  split at h
  case h_1 =>
    cases h
    exact Nat.le_refl _
  case h_2 n =>
    split at h
    case isTrue => cases h
    case isFalse =>
      cases h
      exact Nat.min_le_right _ _

/-- The first page of a reading is an answer to its request. -/
theorem Run.exists_answer (run : Run request store turns) :
    ∃ page, request.answer store = .ok page := by
  cases run with
  | last answered => exact ⟨_, answered⟩
  | next answered => exact ⟨_, answered⟩

/-- Each page is the answer of the store that it was read from. -/
theorem Run.answered (run : Run request store turns) :
    ∀ turn ∈ turns, turn.request.answer turn.store = .ok turn.page := by
  induction run with
  | last answered => simpa using answered
  | next answered _ _ _ ih => exact List.forall_mem_cons.2 ⟨answered, ih⟩

/-- A reading resolves its request against a table, and its pages cover what that access reads. -/
theorem Run.exists_access (run : Run request store turns) (hsize : 1 ≤ store.config.pageSize)
    (hstore : store.IsSound) : ∃ table access, store.table request.table = .ok table ∧
      request.access table store.config.pageSize = .ok access ∧ 1 ≤ access.reading.limit ∧
      request.IsCovering access turns := by
  obtain ⟨page, hpage⟩ := run.exists_answer
  obtain ⟨table, access, rest, htable, haccess, -⟩ := answer_eq_ok hstore hpage
  obtain ⟨-, -, hlimit⟩ := reading_of_access haccess
  have hpos := one_le_limit hsize hlimit
  exact ⟨table, access, htable, haccess, hpos, run.isCovering hstore htable haccess hpos⟩

/-- A reading starts at the store it is from. -/
theorem Run.store_eq (run : Run request after turns) (hsame : ∀ turn ∈ turns, turn.store = store) :
    after = store := by
  cases run with
  | last => exact hsame _ List.mem_cons_self
  | next => exact hsame _ List.mem_cons_self

/-- Without changes in between, the pages evaluate the items that there are to read. -/
theorem IsCovering.mem_iff (h : request.IsCovering access turns)
    (htable : store.table request.table = .ok table)
    (haccess : request.access table store.config.pageSize = .ok access)
    (hstore : ∀ turn ∈ turns, turn.store = store) :
    item ∈ evaluatedItems turns ↔ item ∈ access.matching table ∧ access.reading.Reads item := by
  constructor
  · intro hitem
    obtain ⟨turn, hturn, hevaluated⟩ := List.mem_flatMap.1 hitem
    have hmatches := hstore turn hturn ▸ h.found turn hturn item hevaluated
    exact ⟨(matches_iff htable haccess).1 hmatches, h.reads item hitem⟩
  · rintro ⟨hmatching, hreads⟩
    refine h.complete item ?_ hreads
    intro turn hturn
    exact hstore turn hturn ▸ (matches_iff htable haccess).2 hmatching

/-- A request without a start key reads all items. -/
theorem reads_of_startKey {pageSize : Nat} (haccess : request.access table pageSize = .ok access)
    (hstart : request.startKey = []) (item : Item) : access.reading.Reads item := by
  obtain ⟨-, hstartKey, -⟩ := reading_of_access haccess
  exact .inl (by rw [hstartKey, hstart]; rfl)

/-- Without changes in between, the pages evaluate each item that the request is about once. -/
theorem IsCovering.perm (h : request.IsCovering access turns) (hstore : store.IsSound)
    (htable : store.table request.table = .ok table)
    (haccess : request.access table store.config.pageSize = .ok access)
    (hstart : request.startKey = []) (hsame : ∀ turn ∈ turns, turn.store = store) :
    (evaluatedItems turns).Perm (access.matching table) := by
  have hstorage := hstore.storage_of_table htable
  have hnodup : (evaluatedItems turns).Nodup := h.ordered.imp Reading.ne_of_before
  have hmatching : (access.matching table).Nodup :=
    (hstorage.pairwise_allItems.filter _).imp KeySchema.Precedes.ne
  apply (List.perm_ext_iff_of_nodup hnodup hmatching).2
  intro item
  rw [h.mem_iff htable haccess hsame]
  exact and_iff_left (reads_of_startKey haccess hstart item)

/-- Without changes in between, the pages return each item once that the request is about and that
the filter keeps. -/
theorem IsCovering.mem_returnedItems_iff (h : request.IsCovering access turns)
    (hstore : store.IsSound) (htable : store.table request.table = .ok table)
    (haccess : request.access table store.config.pageSize = .ok access)
    (hstart : request.startKey = []) (hsame : ∀ turn ∈ turns, turn.store = store) :
    (returnedItems turns).Nodup ∧ ∀ item, item ∈ returnedItems turns ↔
      item ∈ access.matching table ∧ access.keeps item := by
  have hperm := h.perm hstore htable haccess hstart hsame
  have hnodup : (evaluatedItems turns).Nodup := h.ordered.imp Reading.ne_of_before
  rw [h.returned]
  refine ⟨hnodup.filter _, fun item => ?_⟩
  rw [List.mem_filter, hperm.mem_iff]

/-- Where pages may hold nothing, nothing is read. -/
theorem items_eq_nil_of_pageSize (hsize : store.config.pageSize = 0) (hstore : store.IsSound)
    (h : request.answer store = .ok page) : page.items = [] := by
  obtain ⟨table, access, rest, htable, haccess, hcut⟩ := answer_eq_ok hstore h
  obtain ⟨-, -, hlimit⟩ := reading_of_access haccess
  have hzero : access.reading.limit = 0 := by
    have hmost := limit_le_pageSize hlimit
    omega
  have hlength := hcut.length
  rw [hzero, Nat.zero_min] at hlength
  rw [hcut.items, List.length_eq_zero_iff.1 hlength]
  rfl

theorem Run.returnedItems_eq_nil (run : Run request store turns)
    (hsize : store.config.pageSize = 0) (hstore : store.IsSound)
    (hsame : ∀ turn ∈ turns, turn.store = store) : returnedItems turns = [] := by
  refine List.flatMap_eq_nil_iff.2 fun turn hturn => ?_
  have hanswer := run.answered turn hturn
  rw [hsame turn hturn] at hanswer
  exact items_eq_nil_of_pageSize hsize hstore hanswer

/-- Without changes in between, a reading from the start returns items of the table, and none of
them twice. -/
theorem Run.returnedItems_subset (run : Run request store turns) (hstore : store.IsSound)
    (hstart : request.startKey = []) (hsame : ∀ turn ∈ turns, turn.store = store) :
    (returnedItems turns).Nodup ∧ ∃ table, store.table request.table = .ok table ∧
      ∀ item ∈ returnedItems turns, item ∈ table.storage.allItems := by
  rcases Nat.eq_zero_or_pos store.config.pageSize with hsize | hsize
  · obtain ⟨page, hpage⟩ := run.exists_answer
    obtain ⟨table, -, -, htable, -⟩ := answer_eq_ok hstore hpage
    rw [run.returnedItems_eq_nil hsize hstore hsame]
    exact ⟨.nil, table, htable, nofun⟩
  · obtain ⟨table, access, htable, haccess, hpos, hcovering⟩ := run.exists_access hsize hstore
    obtain ⟨hnodup, hmem⟩ := hcovering.mem_returnedItems_iff hstore htable haccess hstart hsame
    exact ⟨hnodup, table, htable, fun item hitem => (List.mem_filter.1 ((hmem item).1 hitem).1).1⟩

/-- Without changes in between, all pages but the last one are full. -/
theorem Run.length_eq (run : Run request store turns) : ∀ {access table}, store.IsSound →
    store.table request.table = .ok table →
    request.access table store.config.pageSize = .ok access → 1 ≤ access.reading.limit →
    (∀ turn ∈ turns, turn.store = store) →
    turns.length = pageCount (evaluatedItems turns).length access.reading.limit := by
  induction run with
  | @last request store page answered complete =>
    intro access table hstore htable haccess hlimit _
    obtain ⟨rest, hcut⟩ := exists_cut hstore htable haccess answered
    obtain rfl := hcut.rest_eq_nil hlimit complete
    have hitems : evaluatedItems [⟨store, request, page⟩] = request.evaluated store := by
      simp [evaluatedItems, Turn.evaluated]
    have hlength := hcut.length
    rw [List.append_nil] at hlength
    rw [hitems, pageCount_of_le hlimit (by omega), List.length_singleton]
  | @next request store after page key turns answered more changed run ih =>
    intro access table hstore htable haccess hlimit hsame
    obtain ⟨rest, hcut⟩ := exists_cut hstore htable haccess answered
    obtain ⟨hrest, before, last, hevaluated, hkey⟩ := hcut.exists_last more
    have hsame' : ∀ turn ∈ turns, turn.store = store :=
      fun turn hturn => hsame turn (List.mem_cons_of_mem _ hturn)
    obtain rfl := run.store_eq hsame'
    have htable' : after.table (request.after key).table = .ok table := by rwa [table_after]
    have haccess' := access_after key haccess
    have hlength := ih hstore htable' haccess' hlimit hsame'
    have hfull : (request.evaluated after).length = access.reading.limit := by
      have hlength := hcut.length
      have hpos := List.length_pos_iff.2 hrest
      rw [List.length_append] at hlength
      omega
    have hmore : 1 ≤ (evaluatedItems turns).length := by
      obtain ⟨first, others, rfl⟩ := List.exists_cons_of_ne_nil hrest
      rw [hevaluated] at hcut
      have hfirst := (hcut.mem_rest_iff hrest hkey).1 List.mem_cons_self
      have hcovering := run.isCovering hstore htable' haccess' hlimit
      exact List.length_pos_of_mem ((hcovering.mem_iff htable' haccess' hsame').2 hfirst)
    have hitems : evaluatedItems (⟨after, request, page⟩ :: turns) =
        request.evaluated after ++ evaluatedItems turns := List.flatMap_cons
    rw [hitems, List.length_append, hfull, pageCount_add hlimit hmore, List.length_cons, hlength]
    rfl

def letter (text : String) : Item := [("id", .string text)]

end PageRequest

end KeyedStore
