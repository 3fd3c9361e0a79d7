import KeyedStore.Proofs.Connector.GrantedCreations

/-!
# Tables are created once

Provisionings that race for a table create it once, in whatever order they take turns: one of them
is granted the creation, and the others find the table, by its name in a listing or by the refusal
of their own creation. `Race.CreatesOnce` spells this out.
-/
namespace KeyedStore

namespace Race

/-! ## The last page -/

/-- Whether a turn of a provisioning reads the last page of names and, with the table there, ends
the provisioning. -/
def EndsListing (start : Race) (turns : List Turn) (runner : Nat) (schema : Schema) : Prop :=
  ∃ before after startAfter names, turns = before ++ .go runner :: after ∧
    (start.play before).provisioners[runner]? =
      some ⟨schema, .listing (.reading startAfter names)⟩ ∧
    (start.play before).store.tables.contains schema.tableName ∧
    (start.play (before ++ [.go runner])).Returns runner schema .existing

variable {start : Race} {turns : List Turn} {runner : Nat} {schema : Schema}

/-- A provisioning that has listed its table ended with the last page that it read. -/
theorem endsListing_of_listed (hsound : start.IsSound) (hnew : start.provisioners = [])
    {names : List String} (hmem : schema.tableName ∈ names)
    (hrunner : (start.play turns).provisioners[runner]? =
      some ⟨schema, .listing (.finished (.ok names))⟩) :
    start.EndsListing turns runner schema := by
  induction turns using List.reverseRecOn with
  | nil => simp [play, hnew] at hrunner
  | append_singleton turns turn ih =>
    have hlast : start.play (turns ++ [turn]) = (start.play turns).take turn := play_append ..
    rw [hlast] at hrunner
    obtain ⟨hbefore, -⟩ | ⟨schema', -, -, heq, -⟩ |
      ⟨rfl, ⟨_, state⟩, requests, hold, hschema, hmoves, -⟩ := provisioner_cases hrunner
    · obtain ⟨before, after, startAfter, listed, rfl, hreading⟩ := ih hbefore
      exact ⟨before, after ++ [turn], startAfter, listed, by simp, hreading⟩
    · cases heq
    · obtain rfl := hschema
      have hsound' := (hsound.play turns).take (.go runner)
      have hthere : ((start.play turns).take (.go runner)).store.tables.contains
          schema.tableName := by
        cases hsound'.stages _ (List.mem_of_getElem? hrunner) with
        | listed hnames => exact hnames _ hmem
      have hreturns : (start.play (turns ++ [.go runner])).Returns runner schema .existing := by
        rw [hlast]
        exact ⟨_, hrunner, rfl, by rw [Provisioner.result?, Provisioner.next_of_mem hmem]⟩
      simp only at hmoves
      generalize hafter : ((start.play turns).take (.go runner)).store = after at hmoves hthere
      generalize hnext : Provisioning.listing (.finished (.ok names)) = next at hmoves
      cases hmoves with
      | @page startAfter listed page hpage =>
        exact ⟨turns, [], startAfter, listed, rfl, hold, hthere, hreturns⟩
      | create | refused =>
        unfold Provisioning.await at hnext
        split at hnext <;> cases hnext
      | look | lost | sleep => cases hnext

/-! ## Creation once -/

/-- Whether nothing but provisionings creates the tables of provisionings, or touches items. -/
def OnlyOtherTables (turns : List Turn) : Prop :=
  ∀ request, .other request ∈ turns → request.isOnItems = false ∧
    ∀ schema, .start schema ∈ turns → request.creates schema.tableName = false

/-- Whether the provisionings of a race that starts on a store create each table once. -/
structure CreatesOnce (store : MemoryStore) (turns : List Turn) : Prop where
  /-- No provisioning fails, and a few more turns of its own bring it to its end. -/
  ends : ∀ runner provisioner,
    (play { store } turns).provisioners[runner]? = some provisioner →
      (∀ error, provisioner.result? ≠ some (.error error)) ∧
        ∃ more outcome, (play { store } (turns ++ List.replicate more (.go runner))).Returns runner
          provisioner.schema outcome
  /-- One provisioning of a table at most creates it. -/
  created : ∀ runner other schema schema',
    (play { store } turns).Returns runner schema .created →
      (play { store } turns).Returns other schema' .created →
        schema.tableName = schema'.tableName → runner = other
  /-- Of the creations of a table that is new one was granted, and the table is as asked for. -/
  new : ∀ runner schema outcome, store.tables.contains schema.tableName = false →
    (play { store } turns).Returns runner schema outcome →
      ∃ maker provisioner polls table,
        (play { store } turns).provisioners[maker]? = some provisioner ∧
          provisioner.schema.tableName = schema.tableName ∧
          (play { store } turns).grants schema.tableName =
            [⟨some maker, .createTable provisioner.schema.createTable, true⟩] ∧
          (play { store } turns).store.tables.get? schema.tableName = some table ∧
          MemoryTable.ofRequest provisioner.schema.createTable polls = .ok table
  /-- A table is created elsewhere if another provisioning was granted its creation before. -/
  elsewhere : ∀ runner schema, (play { store } turns).Returns runner schema .createdElsewhere →
    (play { store } turns).IsOvertaken runner schema
  /-- A provisioning returns `existing` if the table is there before it reads the first page. -/
  existing : ∀ before after runner provisioner, turns = before ++ after →
    (play { store } turns).provisioners[runner]? = some provisioner →
      (play { store } before).store.tables.contains provisioner.schema.tableName →
        (∀ earlier, (play { store } before).provisioners[runner]? = some earlier →
          earlier.state = .start) →
          (∀ result, provisioner.result? = some result → result = .ok .existing) ∧
            ∃ more, (play { store } (turns ++ List.replicate more (.go runner))).Returns runner
              provisioner.schema .existing
  /-- A table that is left alone is there when the last page of names is read. -/
  listed : ∀ runner schema, (play { store } turns).Returns runner schema .existing →
    EndsListing { store } turns runner schema

/-- The names of the tables that are provisioned. -/
def startedNames (turns : List Turn) (name : String) : Prop :=
  ∃ schema, .start schema ∈ turns ∧ schema.tableName = name

theorem OnlyOtherTables.spares (h : OnlyOtherTables turns) :
    ∀ turn ∈ turns, turn.Spares (startedNames turns) := by
  intro turn hmem
  cases turn with
  | start schema => exact ⟨schema, hmem, rfl⟩
  | go => trivial
  | other request =>
    obtain ⟨hitems, hcreates⟩ := h request hmem
    refine ⟨hitems, ?_⟩
    rintro name ⟨schema, hschema, rfl⟩
    exact hcreates schema hschema

/-- Provisionings that race for tables create each of them once, in whatever order they take turns
and whatever other tables are created meanwhile. -/
theorem createsOnce {store : MemoryStore}
    (hreached : (MemoryStore.empty store.config).Reaches store)
    (hsize : 1 ≤ store.config.namesPageSize) (hturns : OnlyOtherTables turns) :
    CreatesOnce store turns := by
  have hstart := IsOrderly.of_start hreached hsize (startedNames turns)
  have hrace := hstart.play hturns.spares
  constructor
  case ends =>
    intro runner provisioner hrunner
    constructor
    · intro error hresult
      have hstage := hrace.isSound.stages _ (List.mem_of_getElem? hrunner)
      obtain ⟨outcome, houtcome, -⟩ := hstage.of_result? hresult
      cases houtcome
    · obtain ⟨more, -, outcome, hreturns⟩ := hrace.isSound.exists_returns hrunner
      exact ⟨more, outcome, by rwa [play_append]⟩
  case created =>
    intro runner other schema schema' hreturns hreturns' hname
    have hmem' := hrace.mem_grants_of_created hreturns'
    rw [← hname] at hmem'
    have heq := hrace.eq_of_mem_grants (hrace.named_of_returns hreturns)
      (hrace.mem_grants_of_created hreturns) hmem'
    exact Option.some.inj (congrArg Asked.asker heq)
  case new =>
    intro runner schema outcome hnew hreturns
    obtain ⟨table, hthere⟩ := hrace.get?_of_returns hreturns
    cases hrace.accounts _ (hrace.named_of_returns hreturns) with
    | old hold => simp [hold] at hnew
    | missing hmissing => simp [hthere] at hmissing
    | made _ hmaker hname hgrants htable =>
      exact ⟨_, _, _, _, hmaker, hname, hgrants, htable, Schema.ofRequest_createTable _ _⟩
  case elsewhere =>
    intro runner schema hreturns
    obtain ⟨state, hrecords, houtcome⟩ := hrace.records_of_returns hreturns (by simp)
    exact hrecords.elsewhere houtcome
  case existing =>
    rintro before after runner provisioner rfl hrunner hthere hbegins
    have hbefore := hstart.play fun turn hmem => hturns.spares turn (List.mem_append_left _ hmem)
    have hnotices := hbefore.notices_of_start hthere hbegins
    have hexisting {later : List Turn} {outcome : ProvisionOutcome}
        (hreturns : (play { store } (before ++ later)).Returns runner provisioner.schema outcome) :
        outcome = .existing := by
      rw [play_append] at hreturns
      exact (hnotices.play later).eq_existing hreturns
    constructor
    · intro result hresult
      have hstage := hrace.isSound.stages _ (List.mem_of_getElem? hrunner)
      obtain ⟨outcome, rfl, -⟩ := hstage.of_result? hresult
      rw [hexisting ⟨provisioner, hrunner, rfl, hresult⟩]
    · obtain ⟨more, -, outcome, hreturns⟩ := hrace.isSound.exists_returns hrunner
      rw [← play_append, List.append_assoc] at hreturns
      refine ⟨more, ?_⟩
      rw [List.append_assoc, ← hexisting hreturns]
      exact hreturns
  case listed =>
    intro runner schema hreturns
    obtain ⟨-, listed, hlisted, hrunner⟩ | ⟨hnew, -⟩ := hrace.cases_of_returns hreturns
    · exact endsListing_of_listed hstart.isSound rfl hlisted hrunner
    · exact absurd rfl hnew

def notes : Schema where
  name := "Note"
  tableName := "notes"
  hashKey := "id"
  rangeKey := none
  compositeKey := none
  separator := defaultSeparator
  generatesHash := false
  types := [("id", .string)]
  localIndexes := []
  globalIndexes := []
  settings := {}

/-- Two provisionings in turns, a table that something else creates, and a third provisioning, which
reads two pages of names. -/
def noteTurns : List Turn :=
  [.start notes, .start notes, .go 0, .go 1,
    .other (.createTable { notes.createTable with table := "drafts" }),
    .go 0, .go 1, .go 0, .go 1, .go 0, .go 0, .start notes, .go 2, .go 2]

/-- Of two provisionings of notes at once one creates the table, and a later one finds it. -/
theorem createsOnce_notes :
    let store := MemoryStore.empty { namesPageSize := 1 }
    (MemoryStore.empty store.config).Reaches store ∧ 1 ≤ store.config.namesPageSize ∧
      OnlyOtherTables noteTurns ∧ CreatesOnce store noteTurns ∧
      (play { store } noteTurns).Returns 0 notes .created ∧
      (play { store } noteTurns).Returns 1 notes .createdElsewhere ∧
      (play { store } noteTurns).Returns 2 notes .existing := by
  have hturns : OnlyOtherTables noteTurns := by
    simp [OnlyOtherTables, noteTurns, Request.isOnItems, Request.creates, notes]
  exact ⟨.refl, by decide, hturns, createsOnce .refl (by decide) hturns,
    ⟨_, rfl, rfl, rfl⟩, ⟨_, rfl, rfl, rfl⟩, ⟨_, rfl, rfl, rfl⟩⟩

end Race

end KeyedStore
