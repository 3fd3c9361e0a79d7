import KeyedStore.Proofs.Connector.Fetching
import KeyedStore.Proofs.Connector.Requests
import KeyedStore.Proofs.Plan.Selecting

/-!
# Reads from any store

Whatever a store does, what it answers to the requests for the pages of a plan is a sequence of
replies. Over every such sequence the requests of a reading follow the continuation keys, and
windows are cut from all items of the pages together.
-/
namespace KeyedStore

namespace Schema

variable {filter other : Filter}

/-- A filter is planned by its conditions. -/
theorem plan_congr (schema : Schema) (h : filter.conditions = other.conditions) :
    schema.plan filter = schema.plan other := by
  have hrole : schema.role filter = schema.role other := by
    funext name
    unfold role Filter.condition?
    rw [h]
  unfold plan compileQuery compileScan
  rw [renderFragments_congr hrole, h]

end Schema

/-- What a store answers to the request for a page. -/
abbrev PageReply := Except ConnectorError ItemPage

namespace PageReply

/-- Whether a reading ends with a reply: an error, or a page that no other one follows. -/
def isLast : PageReply → Bool
  | .error _ => true
  | .ok page => page.next.isNone

/-- The items that a reply brings. -/
def items : PageReply → List Item
  | .error _ => []
  | .ok page => page.items

/-- The key to ask for after a reply, given all items so far and how many are enough. -/
def continuation? (enough : Option Nat) (items : List Item) : PageReply → Option Item
  | .error _ => none
  | .ok page => if enough.any (· ≤ items.length) then none else page.next

variable {reply : PageReply} {enough : Option Nat} {read : List Item} {key : Item}

/-- The last page is the one whose last key is absent or empty. -/
theorem isLast_iff : isLast reply ↔ (∃ error, reply = .error error) ∨
    ∃ page : ItemPage, reply = .ok page ∧ (page.lastKey = none ∨ page.lastKey = some []) := by
  cases reply with
  | error error => simp [isLast]
  | ok page => simp [isLast, ItemPage.next_eq_none_iff]

/-- A page is continued after its last key if that is not empty and more items are wanted. -/
theorem continuation?_eq_some_iff : continuation? enough read reply = some key ↔
    ∃ page : ItemPage, reply = .ok page ∧ page.lastKey = some key ∧ key ≠ [] ∧
      ∀ n ∈ enough, read.length < n := by
  cases reply with
  | error error => simp [continuation?]
  | ok page =>
    have hwanted : enough.any (· ≤ read.length) = false ↔ ∀ n ∈ enough, read.length < n := by
      cases enough <;> simp
    simp only [continuation?, Option.ite_none_left_eq_some, Bool.not_eq_true, hwanted,
      ItemPage.next_eq_some_iff, Except.ok.injEq, exists_eq_left']
    exact and_comm.trans and_assoc

end PageReply

/-- A store that answers with given replies, one after another, and keeps what it is asked. -/
structure Playback where
  replies : List PageReply
  requests : List Request := []

namespace Playback

/-- Answers with the next reply, or with an empty page where there is none. -/
def play (request : Request) : StateM Playback PageReply := fun playback =>
  (playback.replies.head?.getD (.ok {}),
    { replies := playback.replies.tail, requests := playback.requests ++ [request] })

/-- Replies are for queries and scans; other requests are answered with nothing. -/
def service : Service Playback where
  call
    | .query request => play (.query request)
    | .scan request => play (.scan request)
    | request => fun playback => (.ok request.emptyAnswer, playback)
  steps playback := playback.replies.length + 1

end Playback

namespace Connector

open PageReply

variable {plan : Plan} {table : String} {enough : Option Nat} {startKey : Item} {before : List Item}
  {replies rest : List PageReply} {reply : PageReply} {requests : List Request}
  {result : Except ConnectorError (List Item)}

/-- How a reading that has read some items and asks for those after a key goes on over replies: what
it asks for, and its result. -/
structure Fetches (plan : Plan) (table : String) (enough : Option Nat) (startKey : Item)
    (before : List Item) (replies : List PageReply) (requests : List Request)
    (result : Except ConnectorError (List Item)) : Prop where
  first : requests[0]? = some (plan.request table startKey)
  /-- After each reply the page after its continuation key is asked for, and nothing if there is no
  such key or there are enough items. -/
  next : ∀ i < requests.length, requests[i + 1]? =
    (replies[i]?.bind (continuation? enough (before ++ (replies.take (i + 1)).flatMap items))).map
      (plan.request table)
  answered : requests.length ≤ replies.length
  /-- An error among the replies is the result. -/
  failed : ∀ error, .error error ∈ replies.take requests.length → result = .error error
  /-- Without one the result is the items of all pages. -/
  succeeded : (∀ reply ∈ replies.take requests.length, reply.isOk) →
    result = .ok (before ++ (replies.take requests.length).flatMap items)

/-- Asking for a page takes one step. -/
theorem runFor_play (steps : Nat) (requests : List Request) :
    (Playback.service.runFor (Paging.next plan table enough) (steps + 1)
        (.reading startKey before)).run.run ⟨reply :: replies, requests⟩ =
      (Playback.service.runFor (Paging.next plan table enough) steps
        (Paging.receive enough before reply)).run.run
          ⟨replies, requests ++ [plan.request table startKey]⟩ := by
  cases plan <;> rfl

/-- The step: a reading goes on if there is a key to ask for, and ends otherwise. -/
theorem receive_eq (enough : Option Nat) (before : List Item) (reply : PageReply) :
    Paging.receive enough before reply =
      match reply.continuation? enough (before ++ reply.items) with
      | some key => .reading key (before ++ reply.items)
      | none => .finished (reply.map fun page => before ++ page.items) := by
  cases reply with
  | error error => rfl
  | ok page =>
    simp only [Paging.receive, continuation?, items]
    cases page.next with
    | none => simp [Except.map]
    | some key =>
      cases enough with
      | none => rfl
      | some n =>
        by_cases henough : n ≤ before.length + page.items.length <;> simp [henough, Except.map]

/-- A reading that ends with a reply has sent one request. -/
theorem fetches_singleton (hlast : reply.continuation? enough (before ++ reply.items) = none) :
    Fetches plan table enough startKey before (reply :: rest) [plan.request table startKey]
      (reply.map fun page => before ++ page.items) where
  first := rfl
  next i hi := by
    obtain rfl : i = 0 := by simpa using hi
    simp [hlast]
  answered := by simp
  failed error herror := by
    obtain rfl : .error error = reply := by simpa using herror
    rfl
  succeeded hok := by
    cases reply with
    | error error => simp [Except.isOk, Except.toBool] at hok
    | ok page => simp [items, Except.map]

/-- A reading that goes on after a reply has sent one request more than it sends from then on. -/
theorem Fetches.cons {key : Item} {page : ItemPage}
    (hkey : continuation? enough (before ++ page.items) (.ok page) = some key)
    (h : Fetches plan table enough key (before ++ page.items) rest requests result) :
    Fetches plan table enough startKey before (.ok page :: rest)
      (plan.request table startKey :: requests) result where
  first := rfl
  next i hi := by
    cases i with
    | zero => simpa [hkey, items] using h.first
    | succ i => simpa [items] using h.next i (by simpa using hi)
  answered := by simpa using h.answered
  failed error herror := h.failed error (by simpa using herror)
  succeeded hok := by
    have hrest := h.succeeded fun reply hreply => hok reply (by simp [hreply])
    simpa [items] using hrest

/-- The run: a reading over replies of which one is the last follows the continuation keys. -/
theorem exists_fetches (hlast : ∃ reply ∈ replies, isLast reply) (asked : List Request) :
    ∃ requests result,
      (Playback.service.runFor (Paging.next plan table enough) (replies.length + 1)
        (.reading startKey before)).run.run ⟨replies, asked⟩ =
          (result.mapError Interruption.failed,
            ⟨replies.drop requests.length, asked ++ requests⟩) ∧
      Fetches plan table enough startKey before replies requests result := by
  induction replies generalizing startKey before asked with
  | nil => simp at hlast
  | cons reply rest ih =>
    rw [List.length_cons, runFor_play, receive_eq]
    cases hnext : reply.continuation? enough (before ++ reply.items) with
    | none =>
      refine ⟨_, _, ?_, fetches_singleton hnext⟩
      rw [Service.runFor]
      cases reply <;> rfl
    | some key =>
      cases reply with
      | error error => cases hnext
      | ok page =>
        have hmore : ∃ reply ∈ rest, isLast reply := by
          obtain ⟨other, hother, hends⟩ := hlast
          rcases List.mem_cons.1 hother with rfl | hmem
          · obtain ⟨_, ⟨⟩, hkey, hnonempty, -⟩ := continuation?_eq_some_iff.1 hnext
            obtain ⟨_, ⟨⟩⟩ | ⟨_, ⟨⟩, habsent | hempty⟩ := isLast_iff.1 hends
            · cases hkey.symm.trans habsent
            · exact absurd (Option.some.inj (hkey.symm.trans hempty)) hnonempty
          · exact ⟨other, hmem, hends⟩
        obtain ⟨requests, result, hrun, hfetches⟩ :=
          ih hmore (asked ++ [plan.request table startKey])
        refine ⟨plan.request table startKey :: requests, result, ?_, hfetches.cons hnext⟩
        simpa [items] using hrun

variable {connector : Connector Playback} {schema : Schema} {filter : Filter}

/-- Reading all records that a filter selects, where no relations are to be loaded: they are fetched
and shaped. -/
theorem run_all {σ : Type} {connector : Connector σ} (hplan : schema.plan filter = .ok plan)
    (hrelations : filter.relations = none ∨ connector.loadRelations = none) (s : σ) :
    (connector.all schema filter).run.run s =
      match ((connector.fetch plan schema.tableName filter.minResults).run.run s :
        Except Interruption (List Item) × σ) with
      | (.ok items, after) => (.ok (filter.shape schema (items.map Item.toRecord)), after)
      | (.error error, after) => (.error error, after) := by
  have hplanned : (Connector.plan schema filter : Operation σ Plan) = pure plan := by
    unfold Connector.plan
    rw [hplan]
    rfl
  unfold Connector.all
  rw [hplanned, pure_bind, Operation.run_bind]
  rcases ((connector.fetch plan schema.tableName filter.minResults).run.run s :
    Except Interruption (List Item) × σ) with ⟨result, after⟩
  cases result with
  | error error => rfl
  | ok items =>
    simp only
    split
    case h_1 relations load hwanted hload =>
      rcases hrelations with hnone | hnone
      · rw [hnone] at hwanted
        cases hwanted
      · rw [hnone] at hload
        cases hload
    case h_2 => rfl

/-- Windows of one length, one after another, make up the start of a list. -/
theorem flatMap_window {α : Type} (n m : Nat) (xs : List α) :
    (List.range m).flatMap (fun k => window (k * n) (some n) xs) = xs.take (m * n) := by
  induction m with
  | zero => simp
  | succ m ih =>
    rw [List.range_succ, List.flatMap_append, ih, Nat.succ_mul, List.take_add]
    simp [window]

theorem shape_perm (schema : Schema) (filter : Filter) (records : List Record) :
    (filter.shape schema records).Perm (window filter.offset filter.limit records) :=
  stableSort_perm _ _

/-- Whether records are those of the window that a filter asks for, in any order. -/
def IsWindow (filter : Filter) (items : List Item) (records : List Record) : Prop :=
  ∃ kept : List Item, records.Perm (kept.map Item.toRecord) ∧
    ∀ i, kept[i]? = if filter.limit.all (i < ·) then items[filter.offset + i]? else none

theorem isWindow_shape (schema : Schema) (filter : Filter) (items : List Item) :
    IsWindow filter items (filter.shape schema (items.map Item.toRecord)) := by
  refine ⟨window filter.offset filter.limit items, ?_, fun i => ?_⟩
  · have hmap : (window filter.offset filter.limit items).map Item.toRecord =
        window filter.offset filter.limit (items.map Item.toRecord) := by
      cases hlimit : filter.limit <;> simp [window]
    rw [hmap]
    exact shape_perm schema filter _
  · cases hlimit : filter.limit with
    | none => simp [window]
    | some limit => simp [window, List.getElem?_take]

/-- What a connector fetches from a store that plays back replies. -/
theorem exists_fetch (hservice : connector.service = Playback.service)
    (hlast : ∃ reply ∈ replies, isLast reply) (plan : Plan) (table : String)
    (enough : Option Nat) : ∃ requests result,
      (connector.fetch plan table enough).run.run ⟨replies, []⟩ =
        (result.mapError Interruption.failed, ⟨replies.drop requests.length, requests⟩) ∧
      Fetches plan table enough [] [] replies requests result := by
  unfold Connector.fetch
  rw [hservice, Service.run_eq]
  exact exists_fetches hlast []

/-- What all records that a filter selects are, from a store that plays back replies. -/
theorem exists_all (hservice : connector.service = Playback.service)
    (hlast : ∃ reply ∈ replies, isLast reply) (hplan : schema.plan filter = .ok plan)
    (hrelations : filter.relations = none ∨ connector.loadRelations = none) :
    ∃ requests result, ∃ outcome : Except ConnectorError (List Record),
      Fetches plan schema.tableName filter.minResults [] [] replies requests result ∧
      (connector.all schema filter).run.run ⟨replies, []⟩ =
        (outcome.mapError Interruption.failed, ⟨replies.drop requests.length, requests⟩) ∧
      (∀ error, result = .error error → outcome = .error error) ∧
      ∀ items, result = .ok items →
        ∃ records, outcome = .ok records ∧ IsWindow filter items records := by
  obtain ⟨requests, result, hrun, hfetches⟩ :=
    exists_fetch hservice hlast plan schema.tableName filter.minResults
  refine ⟨requests, result, result.map fun items => filter.shape schema (items.map Item.toRecord),
    hfetches, ?_, ?_, ?_⟩
  · rw [run_all hplan hrelations, hrun]
    cases result <;> rfl
  · rintro error rfl
    rfl
  · rintro items rfl
    exact ⟨_, rfl, isWindow_shape schema filter items⟩

/-- Windows of one length, one after another, are cut from the same records in the same order. -/
theorem exists_windows {σ : Type} {connector : Connector σ} {s after : σ} {records : List Record}
    (hrelations : filter.relations = none ∨ connector.loadRelations = none)
    (hall : (connector.all schema { filter with offset := 0, limit := none }).run.run s =
      (.ok records, after)) (n : Nat) :
    ∃ part : Nat → List Record,
      (∀ k, (connector.all schema { filter with offset := k * n, limit := some n }).run.run s =
        (.ok (part k), after)) ∧
      ∀ m, records.length ≤ m * n →
        ((List.range m).flatMap part).Perm records ∧ ∀ k, m ≤ k → part k = [] := by
  obtain ⟨plan, _, hplanned, -⟩ := Operation.bind_eq_ok_iff.1 hall
  obtain ⟨hplanned, -⟩ := Operation.ofExcept_eq_ok_iff.1 hplanned
  have hsame (offset : Nat) (limit : Option Nat) :
      schema.plan { filter with offset, limit } = schema.plan filter := schema.plan_congr rfl
  have hplan : schema.plan filter = .ok plan :=
    (hsame 0 none).symm.trans (mapError_eq_ok_iff.1 hplanned)
  have hrun (offset : Nat) (limit : Option Nat) :=
    @run_all plan schema { filter with offset, limit } σ connector
      ((hsame offset limit).trans hplan) hrelations s
  rcases hfetch : ((connector.fetch plan schema.tableName filter.minResults).run.run s :
    Except Interruption (List Item) × σ) with ⟨result, middle⟩
  simp only [hfetch] at hrun
  rw [hrun] at hall
  cases result with
  | error error => cases hall
  | ok items =>
    cases hall
    let read := items.map Item.toRecord
    let part (k : Nat) := Filter.shape { filter with offset := k * n, limit := some n } schema read
    have hpart (k : Nat) : (part k).Perm (window (k * n) (some n) read) := shape_perm schema _ read
    have hall : (Filter.shape { filter with offset := 0, limit := none } schema read).Perm read :=
      shape_perm schema _ read
    refine ⟨part, fun k => hrun (k * n) (some n), fun m hm => ⟨?_, fun k hk => ?_⟩⟩
    · have hlength : read.length ≤ m * n := hall.length_eq ▸ hm
      have hparts : ((List.range m).flatMap part).Perm read := by
        refine (List.Perm.flatMap_left _ fun k _ => hpart k).trans ?_
        rw [flatMap_window, List.take_of_length_le hlength]
      exact hparts.trans hall.symm
    · have hlength : read.length ≤ k * n :=
        (hall.length_eq ▸ hm).trans (Nat.mul_le_mul_right n hk)
      have hnil := hpart k
      rw [window, List.drop_of_length_le hlength, List.take_nil] at hnil
      exact hnil.eq_nil

/-- Over any replies of a store of which one ends the reading: fetching asks for the page after each
continuation key until there is none, an error comes or there are enough items, and returns the
error or the items of all pages; all records that a filter selects are a window of these items, in
any order; and windows of one length, one after another, are cut from the same records. -/
theorem reads_playback (hservice : connector.service = Playback.service)
    (hlast : ∃ reply ∈ replies, isLast reply) :
    (∀ plan table enough, ∃ requests result,
      (connector.fetch plan table enough).run.run ⟨replies, []⟩ =
        (result.mapError Interruption.failed, ⟨replies.drop requests.length, requests⟩) ∧
      Fetches plan table enough [] [] replies requests result) ∧
    (∀ (schema : Schema) filter plan, schema.plan filter = .ok plan →
      filter.relations = none ∨ connector.loadRelations = none →
      ∃ requests result, ∃ outcome : Except ConnectorError (List Record),
        Fetches plan schema.tableName filter.minResults [] [] replies requests result ∧
        (connector.all schema filter).run.run ⟨replies, []⟩ =
          (outcome.mapError Interruption.failed, ⟨replies.drop requests.length, requests⟩) ∧
        (∀ error, result = .error error → outcome = .error error) ∧
        ∀ items, result = .ok items →
          ∃ records, outcome = .ok records ∧ IsWindow filter items records) ∧
    ∀ schema (filter : Filter), filter.relations = none ∨ connector.loadRelations = none →
      ∀ records after, (connector.all schema { filter with offset := 0, limit := none }).run.run
        ⟨replies, []⟩ = (.ok records, after) →
      ∀ n, ∃ part : Nat → List Record,
        (∀ k, (connector.all schema { filter with offset := k * n, limit := some n }).run.run
          ⟨replies, []⟩ = (.ok (part k), after)) ∧
        ∀ m, records.length ≤ m * n →
          ((List.range m).flatMap part).Perm records ∧ ∀ k, m ≤ k → part k = [] :=
  ⟨exists_fetch hservice hlast, fun _ _ _ => exists_all hservice hlast,
    fun _ _ hrelations _ _ => exists_windows hrelations⟩

/-- The items of two pages, of which the second one ends with an empty key. -/
def twoPages : List PageReply := [
  .ok { items := [[("id", .string "2")]], lastKey := some [("id", .string "2")] },
  .ok { items := [[("id", .string "1")]], lastKey := some [] }]

/-- The second page is asked for after the key of the first one, and no other page after it. -/
theorem fetch_twoPages : ∃ result,
    (Connector.fetch ⟨Playback.service, false, none⟩ (.scan {}) "Task" none).run.run
      ⟨twoPages, []⟩ = (result, ⟨[], [.scan { table := "Task" },
        .scan { table := "Task", startKey := [("id", .string "2")] }]⟩) ∧
    result = .ok [[("id", .string "2")], [("id", .string "1")]] := by
  have hlast : ∃ reply ∈ twoPages, isLast reply := ⟨_, List.mem_cons_of_mem _ (.head _), rfl⟩
  obtain ⟨hfetch, -⟩ := @reads_playback twoPages ⟨Playback.service, false, none⟩ rfl hlast
  obtain ⟨requests, result, hrun, hfetches⟩ := hfetch (.scan {}) "Task" none
  have hfirst := hfetches.first
  match requests with
  | [] => cases hfirst
  | [first] => cases hfetches.next 0 (by simp)
  | first :: second :: third :: rest => cases hfetches.next 1 (by simp)
  | [first, second] =>
    cases hfirst
    cases hfetches.next 0 (by simp)
    refine ⟨_, hrun, ?_⟩
    rw [hfetches.succeeded (by simp [twoPages, Except.isOk, Except.toBool])]
    rfl

end Connector

end KeyedStore
