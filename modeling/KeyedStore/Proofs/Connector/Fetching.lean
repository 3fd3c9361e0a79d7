import KeyedStore.Connector.Local
import KeyedStore.Proofs.Memory.Runs
import Mathlib.Algebra.Order.BigOperators.Group.List
import Mathlib.Algebra.Order.Group.Nat

/-!
# Fetching over a store in memory

A connector reads a plan page by page until no page follows, so it returns what a reading of all
pages does. A store in memory grants more steps than it has pages.
-/
namespace KeyedStore

namespace Service

variable {σ τ α : Type} {service : Service σ} {next : τ → Action τ α} {state : τ} {steps : Nat}

theorem runFor_finish {a : α} (h : next state = .finish (.ok a)) (s : σ) :
    (service.runFor next (steps + 1) state).run.run s = (.ok a, s) := by
  rw [runFor, h]
  rfl

theorem runFor_ask {request : Request} {resume : Except ConnectorError request.Answer → τ}
    (h : next state = .ask request resume) (s : σ) :
    (service.runFor next (steps + 1) state).run.run s =
      (service.runFor next steps (resume (service.call request s).1)).run.run
        (service.call request s).2 := by
  rw [runFor, h]
  rfl

/-- A process is run for the steps that its first state grants. -/
theorem run_eq (service : Service σ) (next : τ → Action τ α) (start : τ) (s : σ) :
    (service.run next start).run.run s = (service.runFor next (service.steps s) start).run.run s :=
  rfl

/-- A process that never sleeps and whose requests change nothing leaves the state as it was. -/
theorem snd_runFor {s : σ} (hsleep : ∀ state milliseconds after,
      next state ≠ .sleep milliseconds after)
    (hask : ∀ state request resume, next state = .ask request resume →
      (service.call request s).2 = s) (steps : Nat) (state : τ) :
    ((service.runFor next steps state).run.run s : Except Interruption α × σ).2 = s := by
  induction steps generalizing state with
  | zero => rfl
  | succ steps ih =>
    cases hnext : next state with
    | finish result =>
      rw [runFor, hnext]
      cases result <;> rfl
    | ask request resume => rw [runFor_ask hnext, hask state request resume hnext, ih]
    | sleep milliseconds after => exact absurd hnext (hsleep state milliseconds after)

end Service

/-- A store grants more steps than a table has items. -/
theorem MemoryStore.itemCount_lt_steps {store : MemoryStore} {name : String} {table : MemoryTable}
    (h : store.table name = .ok table) : table.storage.itemCount + 1 < store.steps := by
  have hmem : table ∈ store.tables.values :=
    List.mem_map_of_mem (OrderedMap.mem_of_get?_eq_some (table_eq_ok_iff.1 h))
  have hcount : table.storage.itemCount ≤
      (store.tables.values.map fun table => table.storage.itemCount).sum :=
    List.le_sum_of_mem (List.mem_map_of_mem hmem)
  rw [List.sum_eq_foldr] at hcount
  unfold steps
  simp only
  omega

/-- A reading goes on after the last key of a page, unless that key is empty. -/
theorem ItemPage.next_eq_some_iff {page : ItemPage} {key : Item} :
    page.next = some key ↔ page.lastKey = some key ∧ key ≠ [] := by
  simp [ItemPage.next, Option.filter_eq_some_iff]

theorem ItemPage.next_eq_none_iff {page : ItemPage} :
    page.next = none ↔ page.lastKey = none ∨ page.lastKey = some [] := by
  cases hlast : page.lastKey <;> simp [ItemPage.next, hlast]

/-- The request for the first page of a plan. -/
def Plan.pageRequest (table : String) : Plan → PageRequest
  | query selection => .query (selection.toQuery table)
  | scan selection => .scan (selection.toScan table)

namespace Connector

open PageRequest

variable {plan : Plan} {table : String} {store : MemoryStore} {startKey : Item}
  {items : List Item} {page : ItemPage} {steps : Nat}

theorem call_of_answer {request : Request} {answer : request.Answer} {after : MemoryStore}
    (h : store.answer request = .ok (answer, after)) :
    MemoryStore.service.call request store = (.ok answer, after) := by
  show ((MemoryStore.respond request store).1.mapError ConnectorError.store,
    (MemoryStore.respond request store).2) = _
  rw [MemoryStore.respond_of_answer h]
  rfl

theorem call_of_refusal {request : Request} {error : StoreError}
    (h : store.answer request = .error error) :
    MemoryStore.service.call request store = (.error (.store error), store) := by
  show ((MemoryStore.respond request store).1.mapError ConnectorError.store,
    (MemoryStore.respond request store).2) = _
  rw [MemoryStore.respond_of_refusal h]
  rfl

/-- No continuation key is empty. -/
theorem next_of_lastKey {request : PageRequest} {key : Item} (hstore : store.IsSound)
    (hpage : request.answer store = .ok page) (hlast : page.lastKey = some key) :
    page.next = some key := by
  obtain ⟨table', access, others, -, -, hcut⟩ := answer_eq_ok hstore hpage
  obtain ⟨hothers, before, last, hevaluated, hkey⟩ := hcut.exists_last hlast
  rw [hevaluated] at hcut
  have hnonempty := hcut.isEmpty_eq_false hothers hkey
  exact ItemPage.next_eq_some_iff.2 ⟨hlast, by simpa using hnonempty⟩

/-- A reading that is over has the result that it ended with. -/
theorem runFor_finished_eq_ok {enough : Option Nat} {ended : Except ConnectorError (List Item)}
    {result : List Item} {after : MemoryStore}
    (h : (MemoryStore.service.runFor (Paging.next plan table enough) steps
      (.finished ended)).run.run store = (.ok result, after)) :
    ended = .ok result ∧ after = store := by
  cases steps with
  | zero => cases h
  | succ steps =>
    cases ended with
    | ok items =>
      cases h
      exact ⟨rfl, rfl⟩
    | error error => cases h

/-- A page that is answered is received. -/
theorem runFor_page (h : ((plan.pageRequest table).after startKey).answer store = .ok page) :
    (MemoryStore.service.runFor (Paging.next plan table none) (steps + 1)
        (.reading startKey items)).run.run store =
      (MemoryStore.service.runFor (Paging.next plan table none) steps
        (Paging.receive none items (.ok page))).run.run store := by
  cases plan with
  | query selection =>
    have hanswer : store.answer (.query { selection.toQuery table with startKey }) =
        .ok (page, store) := congrArg (Except.map (·, store)) h
    rw [Service.runFor_ask rfl, call_of_answer hanswer]
    rfl
  | scan selection =>
    have hanswer : store.answer (.scan { selection.toScan table with startKey }) =
        .ok (page, store) := congrArg (Except.map (·, store)) h
    rw [Service.runFor_ask rfl, call_of_answer hanswer]
    rfl

/-- Reading on with steps enough for the pages that are left returns their items. -/
theorem runFor_of_run {request : PageRequest} {turns : List Turn}
    (run : Run request store turns) : ∀ {startKey items steps}, store.IsSound →
    request = (plan.pageRequest table).after startKey → (∀ turn ∈ turns, turn.store = store) →
    turns.length < steps →
    (MemoryStore.service.runFor (Paging.next plan table none) steps
      (.reading startKey items)).run.run store = (.ok (items ++ returnedItems turns), store) := by
  induction run with
  | @last request store page answered complete =>
    rintro startKey items steps hstore rfl - hsteps
    obtain ⟨rest, rfl⟩ : ∃ rest, steps = rest + 1 + 1 :=
      Nat.exists_eq_add_of_le' hsteps
    have hreceive : Paging.receive none items (.ok page) =
        .finished (.ok (items ++ page.items)) := by
      simp [Paging.receive, ItemPage.next_eq_none_iff.2 (.inl complete)]
    have hnext : Paging.next plan table none (.finished (.ok (items ++ page.items))) =
        .finish (.ok (items ++ page.items)) := rfl
    rw [runFor_page answered, hreceive, Service.runFor_finish hnext]
    simp [returnedItems]
  | @next request store after page key turns answered more changed run ih =>
    rintro startKey items steps hstore rfl hsame hsteps
    obtain ⟨rest, rfl⟩ : ∃ rest, steps = rest + 1 :=
      Nat.exists_eq_add_one.2 (Nat.zero_lt_of_lt hsteps)
    have hsame' : ∀ turn ∈ turns, turn.store = store :=
      fun turn hturn => hsame turn (List.mem_cons_of_mem _ hturn)
    obtain rfl := run.store_eq hsame'
    have hreceive : Paging.receive none items (.ok page) = .reading key (items ++ page.items) := by
      simp [Paging.receive, next_of_lastKey hstore answered more]
    have hsteps' : turns.length < rest := by
      rw [List.length_cons] at hsteps
      omega
    rw [runFor_page answered, hreceive, ih hstore (after_after startKey key _) hsame' hsteps']
    simp [returnedItems]

/-- Where all pages of a plan can be read, fetching it returns their items. -/
theorem fetch_of_run {turns : List Turn} (hsize : 1 ≤ store.config.pageSize)
    (hstore : store.IsSound) (run : Run (plan.pageRequest table) store turns)
    (hsame : ∀ turn ∈ turns, turn.store = store) :
    (Connector.local.fetch plan table none).run.run store = (.ok (returnedItems turns), store) := by
  have hstart : (plan.pageRequest table).startKey = [] := by cases plan <;> rfl
  have hagain : plan.pageRequest table = (plan.pageRequest table).after [] := by cases plan <;> rfl
  obtain ⟨found, access, hfound, haccess, hpos, hcovering⟩ := run.exists_access hsize hstore
  have hsteps : turns.length < store.steps := by
    have hitems := (hcovering.perm hstore hfound haccess hstart hsame).length_eq
    have hmatching : (access.matching found).length ≤ found.storage.allItems.length :=
      List.length_filter_le _ _
    have hcount := (hstore.storage_of_table hfound).itemCount
    have hpages := pageCount_le (evaluatedItems turns).length hpos
    rw [← run.length_eq hstore hfound haccess hpos hsame] at hpages
    have hgranted := MemoryStore.itemCount_lt_steps hfound
    omega
  have hrun : (MemoryStore.service.runFor (Paging.next plan table none) store.steps
      (.reading [] [])).run.run store = (.ok ([] ++ returnedItems turns), store) :=
    runFor_of_run run hstore hagain hsame hsteps
  exact (Service.run_eq MemoryStore.service (Paging.next plan table none) .start store).trans hrun

/-- A page that is refused ends the reading. -/
theorem exists_page_of_runFor {result : List Item} {after : MemoryStore}
    (h : (MemoryStore.service.runFor (Paging.next plan table none) (steps + 1)
      (.reading startKey items)).run.run store = (.ok result, after)) :
    ∃ page, ((plan.pageRequest table).after startKey).answer store = .ok page := by
  cases hanswer : ((plan.pageRequest table).after startKey).answer store with
  | ok page => exact ⟨page, rfl⟩
  | error error =>
    have hfailed : (MemoryStore.service.runFor (Paging.next plan table none) (steps + 1)
        (.reading startKey items)).run.run store =
          (MemoryStore.service.runFor (Paging.next plan table none) steps
            (.finished (.error (.store error)))).run.run store := by
      cases plan with
      | query selection =>
        have hrefused : store.answer (.query { selection.toQuery table with startKey }) =
            .error error := congrArg (Except.map (·, store)) hanswer
        rw [Service.runFor_ask rfl, call_of_refusal hrefused]
        rfl
      | scan selection =>
        have hrefused : store.answer (.scan { selection.toScan table with startKey }) =
            .error error := congrArg (Except.map (·, store)) hanswer
        rw [Service.runFor_ask rfl, call_of_refusal hrefused]
        rfl
    cases (runFor_finished_eq_ok (hfailed.symm.trans h)).1

/-- What is returned after some items are the items of the pages that follow them. -/
theorem exists_run_of_runFor (hstore : store.IsSound) {result : List Item} {after : MemoryStore} :
    ∀ {steps startKey items}, (MemoryStore.service.runFor (Paging.next plan table none) steps
      (.reading startKey items)).run.run store = (.ok result, after) →
    ∃ turns, Run ((plan.pageRequest table).after startKey) store turns ∧
      (∀ turn ∈ turns, turn.store = store) ∧ result = items ++ returnedItems turns := by
  intro steps
  induction steps with
  | zero =>
    intro startKey items h
    cases h
  | succ steps ih =>
    intro startKey items h
    obtain ⟨page, hpage⟩ := exists_page_of_runFor h
    rw [runFor_page hpage] at h
    cases hlast : page.lastKey with
    | none =>
      have hreceive : Paging.receive none items (.ok page) =
          .finished (.ok (items ++ page.items)) := by
        simp [Paging.receive, ItemPage.next_eq_none_iff.2 (.inl hlast)]
      rw [hreceive] at h
      obtain ⟨hresult, -⟩ := runFor_finished_eq_ok h
      cases hresult
      exact ⟨_, .last hpage hlast, by simp, by simp [returnedItems]⟩
    | some key =>
      have hreceive : Paging.receive none items (.ok page) =
          .reading key (items ++ page.items) := by
        simp [Paging.receive, next_of_lastKey hstore hpage hlast]
      rw [hreceive] at h
      obtain ⟨turns, run, hsame, hresult⟩ := ih h
      rw [← after_after startKey key (plan.pageRequest table)] at run
      refine ⟨_, .next hpage hlast .refl run, List.forall_mem_cons.2 ⟨rfl, hsame⟩, ?_⟩
      simpa [returnedItems] using hresult

/-- Fetching returns the items of all pages. -/
theorem exists_run_of_fetch (hstore : store.IsSound) {after : MemoryStore}
    (h : (Connector.local.fetch plan table none).run.run store = (.ok items, after)) :
    ∃ turns, Run (plan.pageRequest table) store turns ∧ (∀ turn ∈ turns, turn.store = store) ∧
      items = returnedItems turns := by
  have hagain : (plan.pageRequest table).after [] = plan.pageRequest table := by cases plan <;> rfl
  have hrun : (MemoryStore.service.runFor (Paging.next plan table none) store.steps
      (.reading [] [])).run.run store = (.ok items, after) :=
    (Service.run_eq MemoryStore.service (Paging.next plan table none) .start store).symm.trans h
  obtain ⟨turns, run, hsame, hresult⟩ := exists_run_of_runFor hstore hrun
  exact ⟨turns, hagain ▸ run, hsame, hresult⟩

/-- Fetching changes nothing, whether it succeeds or not. -/
theorem snd_fetch (plan : Plan) (table : String) (enough : Option Nat) (store : MemoryStore) :
    ((Connector.local.fetch plan table enough).run.run store :
      Except Interruption (List Item) × MemoryStore).2 = store := by
  refine (congrArg Prod.snd (Service.run_eq MemoryStore.service (Paging.next plan table enough)
    .start store)).trans (Service.snd_runFor ?_ ?_ _ _)
  · intro state milliseconds after
    cases state <;> cases plan <;> simp [Paging.next, Plan.ask]
  · intro state request resume hnext
    cases state with
    | finished result => cases hnext
    | reading startKey items =>
      cases plan <;> cases hnext <;>
        · exact MemoryStore.snd_respond_eq_self fun _ _ hanswer =>
            (MemoryStore.unchanged_eq_ok hanswer).2

end Connector

end KeyedStore
