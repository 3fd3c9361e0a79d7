import KeyedStore.Proofs.Memory.Runs

/-!
# Readings that end

A reading of a store that nothing changes ends unless one of its pages is refused: each page leaves
fewer items to read. `Succeeds.exists_run` adds what has been read then: all that the request is
about, each item once.
-/
namespace KeyedStore.PageRequest

/-- Whether a reading asks for a page, given the store and the request for its first page. -/
inductive Asks (request : PageRequest) (store : MemoryStore) : PageRequest → Prop where
  | first : Asks request store request
  | next {asked : PageRequest} {page : ItemPage} {key : Item} (earlier : Asks request store asked)
      (answered : asked.answer store = .ok page) (more : page.lastKey = some key) :
      Asks request store (asked.after key)

/-- Whether all pages can be read. -/
def Succeeds (request : PageRequest) (store : MemoryStore) : Prop :=
  ∀ asked, request.Asks store asked → ∃ page, asked.answer store = .ok page

variable {request asked : PageRequest} {store : MemoryStore} {table : MemoryTable}
  {access : Access} {page : ItemPage} {key : Item} {evaluated rest : List Item} {turns : List Turn}

/-- A page that is asked for is the first one, or asked for after it. -/
theorem Asks.eq_or_after (h : request.Asks store asked) (hpage : request.answer store = .ok page) :
    asked = request ∨ ∃ key, page.lastKey = some key ∧ (request.after key).Asks store asked := by
  induction h with
  | first => exact .inl rfl
  | next _ answered more ih =>
    rcases ih with rfl | ⟨key, hkey, hasks⟩
    · obtain rfl := Except.ok.inj (hpage.symm.trans answered)
      exact .inr ⟨_, more, .first⟩
    · exact .inr ⟨key, hkey, hasks.next answered more⟩

theorem Asks.of_after (hpage : request.answer store = .ok page) (hkey : page.lastKey = some key)
    (h : (request.after key).Asks store asked) : request.Asks store asked := by
  induction h with
  | first => exact .next .first hpage hkey
  | next _ answered more ih => exact ih.next answered more

/-- What is left to read after a page is what the next page is cut from. -/
theorem exists_cut_after (hstore : store.IsSound)
    (htable : store.table request.table = .ok table)
    (haccess : request.access table store.config.pageSize = .ok access)
    (hcut : access.IsCut table page evaluated rest) (hkey : page.lastKey = some key)
    {following : ItemPage} (hanswer : (request.after key).answer store = .ok following) :
    ∃ evaluated' rest', (access.after key).IsCut table following evaluated' rest' ∧
      (evaluated' ++ rest').length = rest.length := by
  obtain ⟨rest', hcut'⟩ :=
    exists_cut hstore (by rwa [table_after]) (access_after key haccess) hanswer
  obtain ⟨hrest, before, last, rfl, hiskey⟩ := hcut.exists_last hkey
  have hnodup : rest.Nodup :=
    (List.pairwise_append.1 hcut.ordered).2.1.imp Reading.ne_of_before
  have hnodup' : ((request.after key).evaluated store ++ rest').Nodup :=
    hcut'.ordered.imp Reading.ne_of_before
  have hperm : ((request.after key).evaluated store ++ rest').Perm rest := by
    apply (List.perm_ext_iff_of_nodup hnodup' hnodup).2
    intro item
    rw [hcut'.mem_iff, hcut.mem_rest_iff hrest hiskey]
    rfl
  exact ⟨_, rest', hcut', hperm.length_eq⟩

/-- A reading ends, given a bound on the items that its first page leaves. -/
theorem exists_run_of_length_le (hstore : store.IsSound) (n : Nat) :
    ∀ {request page access evaluated rest}, request.Succeeds store →
    request.answer store = .ok page → store.table request.table = .ok table →
    request.access table store.config.pageSize = .ok access → 1 ≤ access.reading.limit →
    access.IsCut table page evaluated rest → rest.length ≤ n →
    ∃ turns, Run request store turns ∧ ∀ turn ∈ turns, turn.store = store := by
  induction n with
  | zero =>
    intro request page access evaluated rest _ hpage _ _ _ hcut hlength
    obtain rfl := List.length_eq_zero_iff.1 (Nat.le_zero.1 hlength)
    exact ⟨_, .last hpage hcut.lastKey, by simp⟩
  | succ n ih =>
    intro request page access evaluated rest hsucceeds hpage htable haccess hlimit hcut hlength
    cases hkey : page.lastKey with
    | none => exact ⟨_, .last hpage hkey, by simp⟩
    | some key =>
      obtain ⟨following, hfollowing⟩ := hsucceeds _ (.next .first hpage hkey)
      obtain ⟨evaluated', rest', hcut', heq⟩ :=
        exists_cut_after hstore htable haccess hcut hkey hfollowing
      have hsucceeds' : (request.after key).Succeeds store :=
        fun asked hasks => hsucceeds asked (hasks.of_after hpage hkey)
      -- a page holds at least one item where there are items, so fewer are left after it
      have hless : rest'.length ≤ n := by
        have hpos := List.length_pos_iff.2 (hcut.exists_last hkey).1
        have hlimit' : 1 ≤ (access.after key).reading.limit := hlimit
        have htaken := hcut'.length
        rw [List.length_append] at heq htaken
        omega
      obtain ⟨turns, run, hsame⟩ := ih hsucceeds' hfollowing (by rwa [table_after])
        (access_after key haccess) hlimit hcut' hless
      exact ⟨_, .next hpage hkey .refl run, List.forall_mem_cons.2 ⟨rfl, hsame⟩⟩

/-- The pages of a reading that ends are answered. -/
theorem Run.succeeds (run : Run request store turns) (hsame : ∀ turn ∈ turns, turn.store = store) :
    request.Succeeds store := by
  induction run with
  | last answered complete =>
    intro asked hasks
    rcases hasks.eq_or_after answered with rfl | ⟨key, hkey, -⟩
    · exact ⟨_, answered⟩
    · rw [complete] at hkey
      cases hkey
  | @next request store after page key turns answered more changed run ih =>
    have hsame' : ∀ turn ∈ turns, turn.store = store :=
      fun turn hturn => hsame turn (List.mem_cons_of_mem _ hturn)
    obtain rfl := run.store_eq hsame'
    intro asked hasks
    rcases hasks.eq_or_after answered with rfl | ⟨key', hkey, hasks⟩
    · exact ⟨_, answered⟩
    · rw [more] at hkey
      cases hkey
      exact ih hsame' asked hasks

/-- Without changes in between, a reading comes to its end exactly if no page is refused. -/
theorem succeeds_iff_exists_run (hsize : 1 ≤ store.config.pageSize) (hstore : store.IsSound) :
    request.Succeeds store ↔
      ∃ turns, Run request store turns ∧ ∀ turn ∈ turns, turn.store = store := by
  constructor
  · intro h
    obtain ⟨page, hpage⟩ := h request .first
    obtain ⟨table, access, rest, htable, haccess, hcut⟩ := answer_eq_ok hstore hpage
    obtain ⟨-, -, hlimit⟩ := reading_of_access haccess
    exact exists_run_of_length_le hstore rest.length h hpage htable haccess
      (one_le_limit hsize hlimit) hcut (Nat.le_refl _)
  · rintro ⟨turns, run, hsame⟩
    exact run.succeeds hsame

/-- A reading from the start that nothing changes ends unless one of its pages is refused. Then its
pages evaluate all that the request is about, each item once, on as many pages as it takes, and
return what the filter keeps of it. -/
theorem Succeeds.exists_run (h : request.Succeeds store) (hsize : 1 ≤ store.config.pageSize)
    (hstore : store.IsSound) (hstart : request.startKey = []) :
    ∃ turns table access, Run request store turns ∧ (∀ turn ∈ turns, turn.store = store) ∧
      store.table request.table = .ok table ∧
      request.access table store.config.pageSize = .ok access ∧
      (evaluatedItems turns).Perm (access.matching table) ∧
      (returnedItems turns).Perm ((access.matching table).filter access.keeps) ∧
      turns.length = pageCount (access.matching table).length access.reading.limit := by
  obtain ⟨turns, run, hsame⟩ := (succeeds_iff_exists_run hsize hstore).1 h
  obtain ⟨table, access, htable, haccess, hlimit, hcovering⟩ := run.exists_access hsize hstore
  have hperm := hcovering.perm hstore htable haccess hstart hsame
  have hreturned : (returnedItems turns).Perm ((access.matching table).filter access.keeps) :=
    hcovering.returned ▸ hperm.filter _
  exact ⟨turns, table, access, run, hsame, htable, haccess, hperm, hreturned,
    hperm.length_eq ▸ run.length_eq hstore htable haccess hlimit hsame⟩

section WholeTables

variable {name : String}

/-- A scan of a whole table asks for pages after nothing, or after keys of the table. -/
theorem Asks.eq_after_of_scan (hstore : store.IsSound) (htable : store.table name = .ok table)
    (h : (scan { table := name }).Asks store asked) :
    ∃ startKey, asked = (scan { table := name }).after startKey ∧
      (startKey = [] ∨ ∃ own, table.storage.keySchema.keyOf startKey = .ok own) := by
  induction h with
  | first => exact ⟨[], rfl, .inl rfl⟩
  | @next asked page key _ answered more ih =>
    obtain ⟨startKey, rfl, -⟩ := ih
    obtain ⟨found, access, rest, hfound, haccess, hcut⟩ := answer_eq_ok hstore answered
    obtain rfl : table = found := Except.ok.inj (htable.symm.trans hfound)
    obtain ⟨hkeys, -⟩ := reading_of_access haccess
    obtain ⟨-, before, last, hevaluated, hiskey⟩ := hcut.exists_last more
    rw [hevaluated] at hcut
    obtain ⟨hlast, -⟩ := (hcut.mem_iff last).1 (by simp)
    obtain ⟨own, hown⟩ := (hstore.storage_of_table htable).exists_keyOf
      (List.mem_filter.1 hlast).1
    refine ⟨key, after_after startKey key _, .inr ⟨own, ?_⟩⟩
    rw [KeySchema.keyOf_congr (hkeys ▸ hiskey.keys), hown]

/-- No page of a scan of a whole table is refused. -/
theorem succeeds_scan (hstore : store.IsSound) (htable : store.table name = .ok table) :
    (scan { table := name }).Succeeds store := by
  intro asked hasks
  obtain ⟨startKey, rfl, hstart⟩ := hasks.eq_after_of_scan hstore htable
  let access := Access.ofScan table { table := name, startKey } store.config.pageSize none none
  have hcursor {item : Item} {own : PrimaryKey} (h : table.storage.keySchema.keyOf item = .ok own) :
      access.reading.cursor item = .ok ⟨none, own⟩ :=
    bind_eq_ok_iff.2 ⟨none, rfl, bind_eq_ok_iff.2 ⟨own, h, rfl⟩⟩
  obtain ⟨page, hpage⟩ : ∃ page, access.reading.page (access.candidates table) = .ok page := by
    refine Reading.exists_page (fun item hitem => ?_) (hstart.imp_right ?_)
    · obtain ⟨own, hown⟩ := (hstore.storage_of_table htable).exists_keyOf
        (List.mem_filter.1 hitem).1
      exact ⟨_, hcursor hown⟩
    · rintro ⟨own, hown⟩
      exact ⟨_, hcursor hown⟩
  rw [answer_eq]
  exact ⟨_, bind_eq_ok_iff.2 ⟨table, htable, bind_eq_ok_iff.2 ⟨access, rfl,
    bind_eq_ok_iff.2 ⟨page, mapError_eq_ok_iff.2 hpage, rfl⟩⟩⟩⟩

/-- A scan of a whole table returns each of its items once. -/
theorem exists_run_scan (hsize : 1 ≤ store.config.pageSize) (hstore : store.IsSound)
    (htable : store.table name = .ok table) :
    ∃ turns, Run (scan { table := name }) store turns ∧ (∀ turn ∈ turns, turn.store = store) ∧
      (returnedItems turns).Perm table.storage.allItems := by
  obtain ⟨turns, found, access, run, hsame, hfound, haccess, -, hreturned, -⟩ :=
    (succeeds_scan hstore htable).exists_run hsize hstore rfl
  obtain rfl : table = found := Except.ok.inj (htable.symm.trans hfound)
  obtain ⟨limit, index, filter, hlimit, hindex, hfilter, rfl⟩ := access_scan_eq_ok_iff.1 haccess
  cases hindex
  cases hfilter
  have hall : ((Access.ofScan table { table := name } limit none none).matching table).filter
      (Access.ofScan table { table := name } limit none none).keeps = table.storage.allItems :=
    (List.filter_eq_self.2 fun _ _ => rfl).trans (List.filter_eq_self.2 fun _ _ => rfl)
  exact ⟨turns, run, hsame, hall ▸ hreturned⟩

end WholeTables

end KeyedStore.PageRequest
