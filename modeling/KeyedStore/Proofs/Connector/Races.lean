import KeyedStore.Proofs.Connector.Fetching
import KeyedStore.Proofs.Memory.Tables
import KeyedStore.Proofs.Model.Provisioning

/-!
# Races of provisionings

Any number of provisionings take turns on one store in memory. In a turn a process does what it does
next, and asks the store for one thing at most; between the turns the store answers other requests.

`Race.go_cases` says once what a turn can do, `Race.provisioner_cases` what this means for one of
the provisionings, and `Race.serves_take` what it means for the store.

## Main definitions

* `Race` — a store, the provisionings on it and the log of all requests.
* `Race.play` — a race after some turns.
-/
namespace KeyedStore

/-- A provisioning for a schema. -/
structure Provisioner where
  schema : Schema
  state : Provisioning := .start

/-- What a provisioning does next. -/
def Provisioner.next (provisioner : Provisioner) : Action Provisioning ProvisionOutcome :=
  provisioner.state.next provisioner.schema

/-- The result of a provisioning that is over. -/
def Provisioner.result? (provisioner : Provisioner) :
    Option (Except ConnectorError ProvisionOutcome) :=
  match provisioner.next with
  | .finish result => some result
  | _ => none

section Listed

variable {schema : Schema} {names : List String}

/-- A table that was listed is left alone. -/
theorem Provisioner.next_of_mem (h : schema.tableName ∈ names) :
    Provisioner.next ⟨schema, .listing (.finished (.ok names))⟩ = .finish (.ok .existing) :=
  if_pos (by simpa using h)

/-- A table that was not listed is created. -/
theorem Provisioner.next_of_not_mem (h : schema.tableName ∉ names) :
    Provisioner.next ⟨schema, .listing (.finished (.ok names))⟩ =
      .ask (.createTable schema.createTable) (Provisioning.receive schema) :=
  if_neg (by simpa using h)

end Listed

/-- A request that was made, by a provisioning or by something else. -/
structure Asked where
  asker : Option Nat
  request : Request
  granted : Bool

/-- Provisionings on one store. The log has all requests that were made, the first one first. -/
structure Race where
  store : MemoryStore
  provisioners : List Provisioner := []
  log : List Asked := []

/-- What happens next in a race. -/
inductive Race.Turn where
  /-- A provisioning for a schema joins the race. -/
  | start (schema : Schema)
  /-- A provisioning does what it does next. -/
  | go (runner : Nat)
  /-- Something else asks the store. -/
  | other (request : Request)

namespace Race

/-- Asks the store of a race. -/
def ask (race : Race) (asker : Option Nat) (request : Request) :
    Except ConnectorError request.Answer × Race :=
  let (answer, store) := MemoryStore.service.call request race.store
  (answer, { race with store, log := race.log ++ [⟨asker, request, answer.isOk⟩] })

/-- A race after a provisioning did what it does next. -/
def go (race : Race) (runner : Nat) : Race :=
  match race.provisioners[runner]? with
  | none => race
  | some provisioner =>
    let moved (race : Race) (state : Provisioning) : Race :=
      { race with provisioners := race.provisioners.set runner { provisioner with state } }
    match provisioner.next with
    | .finish _ => race
    | .ask request resume =>
      let (answer, race) := race.ask (some runner) request
      moved race (resume answer)
    | .sleep _ state => moved race state

def take (race : Race) : Turn → Race
  | .start schema => { race with provisioners := race.provisioners ++ [{ schema }] }
  | .go runner => race.go runner
  | .other request => (race.ask none request).2

/-- A race after some turns. -/
def play (race : Race) (turns : List Turn) : Race := turns.foldl take race

theorem play_append (race : Race) (before after : List Turn) :
    race.play (before ++ after) = (race.play before).play after := List.foldl_append

/-- What holds at the start and is kept by every turn holds in the end. -/
theorem play_induction {P : Race → Prop} {race : Race} {turns : List Turn} (hstart : P race)
    (hstep : ∀ turn ∈ turns, ∀ race, P race → P (race.take turn)) : P (race.play turns) := by
  induction turns generalizing race with
  | nil => exact hstart
  | cons turn turns ih =>
    apply ih (hstep turn (by simp) race hstart)
    intro later hlater
    exact hstep later (by simp [hlater])

end Race

/-! ## What a turn can do -/

namespace MemoryStore

variable {store : MemoryStore} {schema : Schema} {name : String} {table : MemoryTable}

theorem createTable_of_free (hfree : store.tables.get? schema.tableName = none) :
    ∃ answer, store.createTable schema.createTable =
      .ok (answer, store.setTable (schema.provisioned store.config.activationPolls)) := by
  unfold createTable
  rw [Schema.ofRequest_createTable]
  have hname : (schema.provisioned store.config.activationPolls).name = schema.tableName := rfl
  have hcontains : store.tables.contains schema.tableName = false := by
    simp [OrderedMap.contains, hfree]
  simp [Except.mapError, hname, hcontains]

theorem createTable_of_taken (htaken : store.tables.get? schema.tableName = some table) :
    store.createTable schema.createTable =
      .error (.resourceInUse ("Table already exists: " ++ schema.tableName)) := by
  unfold createTable
  rw [Schema.ofRequest_createTable]
  have hname : (schema.provisioned store.config.activationPolls).name = schema.tableName := rfl
  simp [Except.mapError, OrderedMap.contains, hname, htaken, throw, throwThe, MonadExceptOf.throw]

theorem describeTable_of_found (hfound : store.tables.get? name = some table) :
    store.describeTable { table := name } =
      .ok ({ table := some (table.describe table.status) }, store.setTable table.poll.2) := by
  unfold describeTable
  rw [table_eq_ok_iff.2 hfound]
  rfl

theorem describeTable_of_missing (hmissing : store.tables.get? name = none) :
    ∃ error, store.describeTable { table := name } = .error error := by
  simp [describeTable, MemoryStore.table, hmissing]

end MemoryStore

/-- What a provisioning in a state does to a store, in the state after, with the request that it
makes and whether this is granted. -/
inductive Provisioning.Moves (schema : Schema) (store : MemoryStore) :
    Provisioning → Provisioning → List (Request × Bool) → MemoryStore → Prop
  | page {startAfter : Option String} {names : List String} {page : TableNames}
      (hpage : store.listTables { startAfter } = .ok page) :
      Moves schema store (.listing (.reading startAfter names))
        (.listing (NameListing.receive names (.ok page))) [(.listTables { startAfter }, true)] store
  | create {names : List String} (hlisted : schema.tableName ∉ names)
      (hfree : store.tables.get? schema.tableName = none) :
      Moves schema store (.listing (.finished (.ok names))) (.await schema .created)
        [(.createTable schema.createTable, true)]
        (store.setTable (schema.provisioned store.config.activationPolls))
  | refused {names : List String} (hlisted : schema.tableName ∉ names) {table : MemoryTable}
      (htaken : store.tables.get? schema.tableName = some table) :
      Moves schema store (.listing (.finished (.ok names))) (.await schema .createdElsewhere)
        [(.createTable schema.createTable, false)] store
  | look {outcome : ProvisionOutcome} {table : MemoryTable}
      (hfound : store.tables.get? schema.tableName = some table) :
      Moves schema store (.activating outcome .looking)
        (.activating outcome (if table.status = .active then .finished (.ok ()) else .pausing))
        [(.describeTable { table := schema.tableName }, true)] (store.setTable table.poll.2)
  | lost {outcome : ProvisionOutcome} (error : ConnectorError)
      (hmissing : store.tables.get? schema.tableName = none) :
      Moves schema store (.activating outcome .looking)
        (.activating outcome (.finished (.error error)))
        [(.describeTable { table := schema.tableName }, false)] store
  | sleep {outcome : ProvisionOutcome} :
      Moves schema store (.activating outcome .pausing) (.activating outcome .looking) [] store

namespace Race

variable {race : Race} {runner : Nat}

theorem ask_of_answer {asker : Option Nat} {request : Request} {answer : request.Answer}
    {after : MemoryStore} (h : race.store.answer request = .ok (answer, after)) :
    race.ask asker request =
      (.ok answer, { race with store := after, log := race.log ++ [⟨asker, request, true⟩] }) := by
  unfold ask
  rw [Connector.call_of_answer h]
  rfl

theorem ask_of_refusal {asker : Option Nat} {request : Request} {error : StoreError}
    (h : race.store.answer request = .error error) :
    race.ask asker request =
      (.error (.store error), { race with log := race.log ++ [⟨asker, request, false⟩] }) := by
  unfold ask
  rw [Connector.call_of_refusal h]
  rfl

/-- The entries of the log for requests of a provisioning. -/
def entries (runner : Nat) (requests : List (Request × Bool)) : List Asked :=
  requests.map fun (request, granted) => ⟨some runner, request, granted⟩

/-- The race after a move of a provisioning. -/
def moved (race : Race) (runner : Nat) (provisioner : Provisioner) (state : Provisioning)
    (requests : List (Request × Bool)) (store : MemoryStore) : Race where
  store := store
  provisioners := race.provisioners.set runner { provisioner with state }
  log := race.log ++ entries runner requests

theorem getElem?_moved {provisioner : Provisioner} {state : Provisioning}
    {requests : List (Request × Bool)} {store : MemoryStore}
    (hrunner : race.provisioners[runner]? = some provisioner) :
    (race.moved runner provisioner state requests store).provisioners[runner]? =
      some { provisioner with state } := by
  simp [moved, (List.getElem?_eq_some_iff.1 hrunner).1]

theorem go_of_ask {provisioner : Provisioner}
    (hrunner : race.provisioners[runner]? = some provisioner) {request : Request}
    {resume : Except ConnectorError request.Answer → Provisioning}
    (hnext : provisioner.next = .ask request resume) :
    race.go runner =
      race.moved runner provisioner (resume (MemoryStore.service.call request race.store).1)
        [(request, (MemoryStore.service.call request race.store).1.isOk)]
        (MemoryStore.service.call request race.store).2 := by
  unfold go
  simp only [hrunner, hnext]
  rfl

theorem go_of_answer {provisioner : Provisioner}
    (hrunner : race.provisioners[runner]? = some provisioner) {request : Request}
    {resume : Except ConnectorError request.Answer → Provisioning}
    (hnext : provisioner.next = .ask request resume) {answer : request.Answer}
    {after : MemoryStore} (h : race.store.answer request = .ok (answer, after)) :
    race.go runner =
      race.moved runner provisioner (resume (.ok answer)) [(request, true)] after := by
  rw [go_of_ask hrunner hnext, Connector.call_of_answer h]
  rfl

theorem go_of_refusal {provisioner : Provisioner}
    (hrunner : race.provisioners[runner]? = some provisioner) {request : Request}
    {resume : Except ConnectorError request.Answer → Provisioning}
    (hnext : provisioner.next = .ask request resume) {error : StoreError}
    (h : race.store.answer request = .error error) :
    race.go runner =
      race.moved runner provisioner (resume (.error (.store error))) [(request, false)]
        race.store := by
  rw [go_of_ask hrunner hnext, Connector.call_of_refusal h]
  rfl

theorem go_of_finish {provisioner : Provisioner}
    (hrunner : race.provisioners[runner]? = some provisioner)
    {result : Except ConnectorError ProvisionOutcome}
    (hnext : provisioner.next = .finish result) :
    race.go runner = race ∧ ∀ other, race.provisioners[runner]? = some other →
      other.result?.isSome := by
  constructor
  · unfold go
    simp only [hrunner, hnext]
  · intro other hother
    obtain rfl : provisioner = other := Option.some.inj (hrunner.symm.trans hother)
    simp [Provisioner.result?, hnext]

theorem go_of_sleep {provisioner : Provisioner}
    (hrunner : race.provisioners[runner]? = some provisioner) {milliseconds : Nat}
    {state : Provisioning} (hnext : provisioner.next = .sleep milliseconds state) :
    race.go runner = race.moved runner provisioner state [] race.store := by
  unfold go
  simp only [hrunner, hnext]
  simp [moved, entries]

/-- Everything that a turn of a provisioning can do. -/
theorem go_cases (race : Race) (runner : Nat) :
    (race.go runner = race ∧
      ∀ provisioner, race.provisioners[runner]? = some provisioner → provisioner.result?.isSome) ∨
      ∃ provisioner state requests store, race.provisioners[runner]? = some provisioner ∧
        Provisioning.Moves provisioner.schema race.store provisioner.state state requests store ∧
        race.go runner = race.moved runner provisioner state requests store := by
  obtain hrunner | ⟨provisioner, hrunner⟩ := Option.eq_none_or_eq_some race.provisioners[runner]?
  · refine .inl ⟨?_, by simp [hrunner]⟩
    unfold go
    rw [hrunner]
  obtain ⟨schema, state⟩ := provisioner
  cases state with
  | listing listing =>
    cases listing with
    | reading startAfter names =>
      obtain ⟨page, hpage⟩ := race.store.exists_listTables startAfter
      have hanswer : race.store.answer (.listTables { startAfter }) = .ok (page, race.store) := by
        simp only [MemoryStore.answer, MemoryStore.unchanged, hpage]
        rfl
      refine .inr ⟨_, _, _, _, hrunner, .page hpage, ?_⟩
      exact go_of_answer hrunner rfl hanswer
    | finished result =>
      cases result with
      | error error => exact .inl (go_of_finish hrunner rfl)
      | ok names =>
        by_cases hlisted : schema.tableName ∈ names
        · exact .inl (go_of_finish hrunner (Provisioner.next_of_mem hlisted))
        have hnext := Provisioner.next_of_not_mem hlisted
        cases htable : race.store.tables.get? schema.tableName with
        | none =>
          obtain ⟨answer, hanswer⟩ := MemoryStore.createTable_of_free htable
          refine .inr ⟨_, _, _, _, hrunner, .create hlisted htable, ?_⟩
          exact go_of_answer hrunner hnext hanswer
        | some table =>
          have hanswer := MemoryStore.createTable_of_taken htable
          refine .inr ⟨_, _, _, _, hrunner, .refused hlisted htable, ?_⟩
          exact go_of_refusal hrunner hnext hanswer
  | activating outcome activation =>
    cases activation with
    | looking =>
      cases htable : race.store.tables.get? schema.tableName with
      | none =>
        obtain ⟨error, hanswer⟩ := MemoryStore.describeTable_of_missing htable
        refine .inr ⟨_, _, _, _, hrunner, .lost (.store error) htable, ?_⟩
        exact go_of_refusal hrunner rfl hanswer
      | some table =>
        have hanswer := MemoryStore.describeTable_of_found htable
        refine .inr ⟨_, _, _, _, hrunner, .look htable, ?_⟩
        rw [go_of_answer hrunner rfl hanswer]
        simp [Activation.receive, MemoryTable.describe]
    | pausing => exact .inr ⟨_, _, _, _, hrunner, .sleep, go_of_sleep hrunner rfl⟩
    | finished result => exact .inl (go_of_finish hrunner rfl)
  | finished result => exact .inl (go_of_finish hrunner rfl)

/-- A provisioning after a turn: the turn was of something else, or the provisioning joined the race
in it, or the turn was its own. -/
theorem provisioner_cases {turn : Turn} {provisioner : Provisioner}
    (h : (race.take turn).provisioners[runner]? = some provisioner) :
    (race.provisioners[runner]? = some provisioner ∧
      ∃ entries, (race.take turn).log = race.log ++ entries ∧
        ∀ asked ∈ entries, asked.asker ≠ some runner) ∨
      (∃ schema, turn = .start schema ∧ runner = race.provisioners.length ∧
        provisioner = { schema } ∧ (race.take turn).log = race.log) ∨
      (turn = .go runner ∧ ∃ old requests, race.provisioners[runner]? = some old ∧
        provisioner.schema = old.schema ∧
        Provisioning.Moves old.schema race.store old.state provisioner.state requests
          (race.take turn).store ∧
        (race.take turn).log = race.log ++ entries runner requests) := by
  cases turn with
  | start schema =>
    simp only [take, List.getElem?_append] at h
    split at h
    case isTrue => exact .inl ⟨h, [], by simp [take], by simp⟩
    case isFalse hlength =>
      obtain ⟨hlt, hget⟩ := List.getElem?_eq_some_iff.1 h
      have hrunner : runner = race.provisioners.length := by
        simp only [List.length_singleton] at hlt
        omega
      exact .inr (.inl ⟨schema, rfl, hrunner, by simpa using hget.symm, rfl⟩)
  | go other =>
    obtain ⟨hsame, -⟩ | ⟨old, state, requests, store, hother, hmoves, hafter⟩ := race.go_cases other
    · rw [take, hsame] at h ⊢
      exact .inl ⟨h, [], by simp, by simp⟩
    · rw [take, hafter] at h ⊢
      simp only [moved, List.getElem?_set] at h
      split at h
      case isTrue heq =>
        subst heq
        refine .inr (.inr ⟨rfl, old, requests, hother, ?_⟩)
        obtain rfl : { old with state } = provisioner := by
          split at h <;> simp_all
        exact ⟨rfl, hmoves, rfl⟩
      case isFalse hne =>
        refine .inl ⟨h, _, rfl, ?_⟩
        intro asked hmem
        obtain ⟨request, -, rfl⟩ := List.mem_map.1 hmem
        simpa using hne
  | other request => exact .inl ⟨h, _, rfl, by simp⟩

/-- A provisioning stays in the race. -/
theorem exists_provisioner_take {provisioner : Provisioner}
    (h : race.provisioners[runner]? = some provisioner) (turn : Turn) :
    ∃ later, (race.take turn).provisioners[runner]? = some later ∧
      later.schema = provisioner.schema := by
  cases turn with
  | start schema =>
    refine ⟨provisioner, ?_, rfl⟩
    rw [take, List.getElem?_append_left (List.getElem?_eq_some_iff.1 h).1, h]
  | go other =>
    obtain ⟨hsame, -⟩ | ⟨old, state, requests, store, hother, hmoves, hafter⟩ := race.go_cases other
    · exact ⟨provisioner, by rw [take, hsame, h], rfl⟩
    · rw [take, hafter]
      simp only [moved, List.getElem?_set]
      split
      case isTrue heq =>
        subst heq
        obtain rfl : provisioner = old := Option.some.inj (h.symm.trans hother)
        exact ⟨{ provisioner with state }, if_pos (List.getElem?_eq_some_iff.1 h).1, rfl⟩
      case isFalse => exact ⟨provisioner, h, rfl⟩
  | other request => exact ⟨provisioner, h, rfl⟩

/-- A provisioning that moves is not over. -/
theorem result?_of_moves {schema : Schema} {store after : MemoryStore} {state next : Provisioning}
    {requests : List (Request × Bool)}
    (h : Provisioning.Moves schema store state next requests after) :
    Provisioner.result? ⟨schema, state⟩ = none := by
  have hlisted {names : List String} (hlisted : schema.tableName ∉ names) :
      Provisioner.result? ⟨schema, .listing (.finished (.ok names))⟩ = none := by
    rw [Provisioner.result?, Provisioner.next_of_not_mem hlisted]
  cases h with
  | create h | refused h => exact hlisted h
  | page | look | lost | sleep => rfl

/-- A provisioning that is over stays as it is. -/
theorem provisioner_take_of_result? {provisioner : Provisioner}
    (h : race.provisioners[runner]? = some provisioner)
    {result : Except ConnectorError ProvisionOutcome} (hresult : provisioner.result? = some result)
    (turn : Turn) : (race.take turn).provisioners[runner]? = some provisioner := by
  obtain ⟨later, hlater, -⟩ := exists_provisioner_take h turn
  obtain ⟨hbefore, -⟩ | ⟨schema, -, hrunner, -⟩ | ⟨-, old, requests, hold, -, hmoves, -⟩ :=
    provisioner_cases hlater
  · rw [hlater, ← hbefore, h]
  · have hlt := (List.getElem?_eq_some_iff.1 h).1
    omega
  · obtain rfl : provisioner = old := Option.some.inj (h.symm.trans hold)
    have hnone : provisioner.result? = none := result?_of_moves hmoves
    rw [hresult] at hnone
    cases hnone

/-- What a request adds to the log of a race, and the store after it. -/
inductive Serves (store : MemoryStore) : List Asked → MemoryStore → Prop
  | nothing : Serves store [] store
  | granted {asker : Option Nat} {request : Request} {after : MemoryStore}
      (h : store.Change request after) : Serves store [⟨asker, request, true⟩] after
  | refused (asker : Option Nat) (request : Request) :
      Serves store [⟨asker, request, false⟩] store

theorem serves_of_moves {schema : Schema} {store after : MemoryStore} {state next : Provisioning}
    {requests : List (Request × Bool)}
    (h : Provisioning.Moves schema store state next requests after) (runner : Nat) :
    Serves store (entries runner requests) after := by
  cases h with
  | page => exact .granted (.list _)
  | create hlisted hfree =>
    refine .granted (.create rfl hfree ?_)
    exact schema.ofRequest_createTable store.config.activationPolls
  | refused | lost => exact .refused _ _
  | look hfound => exact .granted (.look (MemoryStore.table_eq_ok_iff.2 hfound))
  | sleep => exact .nothing

/-- A turn makes one request at most. -/
theorem serves_take (race : Race) (turn : Turn) :
    ∃ entries, (race.take turn).log = race.log ++ entries ∧
      Serves race.store entries (race.take turn).store := by
  cases turn with
  | start schema => exact ⟨[], by simp [take], .nothing⟩
  | go runner =>
    obtain ⟨hsame, -⟩ | ⟨provisioner, state, requests, store, hrunner, hmoves, hafter⟩ :=
      race.go_cases runner
    · exact ⟨[], by simp [take, hsame], by rw [take, hsame]; exact .nothing⟩
    · rw [take, hafter]
      exact ⟨_, rfl, serves_of_moves hmoves runner⟩
  | other request =>
    rw [take]
    cases hanswer : race.store.answer request with
    | error error =>
      rw [ask_of_refusal hanswer]
      exact ⟨_, rfl, .refused none request⟩
    | ok answered =>
      obtain ⟨answer, after⟩ := answered
      rw [ask_of_answer hanswer]
      exact ⟨_, rfl, .granted (MemoryStore.change_of_answer hanswer)⟩

theorem Serves.config {store after : MemoryStore} {entries : List Asked}
    (h : Serves store entries after) (hsound : store.IsSound) : after.config = store.config := by
  cases h with
  | nothing | refused => rfl
  | granted h => exact (h.effect.keeps hsound).config

theorem Serves.advances {store after : MemoryStore} {entries : List Asked}
    (h : Serves store entries after) (hsound : store.IsSound) : store.Advances after := by
  cases h with
  | nothing | refused => exact .refl store
  | granted h => exact h.advances hsound

end Race

end KeyedStore
