import KeyedStore.Proofs.Connector.ProvisioningStages

/-!
# Creations that are granted

A listing misses no table that was there before its first page (`Provisioning.Lists`), however many
pages it takes and whatever tables appear meanwhile. So a creation is refused only where another
provisioning was granted one before (`Race.IsOvertaken`), and a table that is new has exactly one
creation that was granted (`Race.Account`). `Race.IsOrderly` is the invariant that holds all of this
together.
-/
namespace KeyedStore

/-- What a provisioning will return, as far as it is known. -/
def Provisioning.outcome? : Provisioning → Option ProvisionOutcome
  | listing _ => none
  | activating outcome _ => some outcome
  | finished result => result.toOption

@[simp]
theorem Provisioning.outcome?_await (schema : Schema) (outcome : ProvisionOutcome) :
    (await schema outcome).outcome? = some outcome := by
  unfold await
  split <;> rfl

/-! ## Listings miss nothing -/

/-- Whether a table that is there will be among the names of a listing. -/
def Provisioning.Lists (name : String) : Provisioning → Prop
  | listing (.reading startAfter names) => ∀ last ∈ startAfter, name ≤ last → name ∈ names
  | listing (.finished (.ok names)) => name ∈ names
  | _ => False

namespace Provisioning.Lists

variable {schema : Schema} {store after : MemoryStore} {state next : Provisioning}

theorem start (name : String) : Provisioning.start.Lists name := by
  intro last hlast
  cases hlast

/-- A provisioning goes on listing, and takes notice of the table. -/
theorem move {requests : List (Request × Bool)} (h : state.Lists schema.tableName)
    (hmoves : Moves schema store state next requests after)
    (hascending : store.tables.IsAscending) (hsize : 1 ≤ store.config.namesPageSize)
    (hthere : store.tables.contains schema.tableName) : next.Lists schema.tableName := by
  cases hmoves with
  | @page startAfter names page hpage =>
    have hmem (hlast : ∀ last ∈ page.last, schema.tableName ≤ last) :
        schema.tableName ∈ names ++ page.names := by
      by_cases hstart : ∀ start ∈ startAfter, start < schema.tableName
      · have hpage := MemoryStore.mem_of_listTables hpage hascending hsize hthere hstart hlast
        exact List.mem_append_right _ hpage
      · simp only [not_forall] at hstart
        obtain ⟨start, hmem, hlt⟩ := hstart
        exact List.mem_append_left _ (h start hmem (String.not_lt.1 hlt))
    rw [NameListing.receive]
    split
    case h_1 last hlast =>
      intro last' hlast' hle
      apply hmem
      rw [hlast]
      intro last'' hlast''
      cases hlast'
      cases hlast''
      exact hle
    case h_2 hlast => exact hmem (by simp [hlast])
  | create hlisted | refused hlisted => exact absurd h hlisted
  | look | lost | sleep => exact h.elim

/-- A provisioning that listed the table leaves it alone. -/
theorem eq_existing (h : state.Lists schema.tableName) {outcome : ProvisionOutcome}
    (hresult : Provisioner.result? ⟨schema, state⟩ = some (.ok outcome)) : outcome = .existing := by
  unfold Provisioning.Lists at h
  split at h
  · cases hresult
  · rw [Provisioner.result?, Provisioner.next_of_mem h] at hresult
    cases hresult
    rfl
  · exact h.elim

end Provisioning.Lists

namespace Race

variable {race : Race} {runner : Nat} {name : String} {turn : Turn}

/-- Whether a provisioning, once it runs, takes notice of a table that is there. -/
structure Notices (race : Race) (runner : Nat) (name : String) : Prop where
  isSound : race.IsSound
  size : 1 ≤ race.store.config.namesPageSize
  there : race.store.tables.contains name
  lists : ∀ provisioner, race.provisioners[runner]? = some provisioner →
    provisioner.schema.tableName = name → provisioner.state.Lists name

theorem Notices.take (h : race.Notices runner name) (turn : Turn) :
    (race.take turn).Notices runner name := by
  obtain ⟨entries, -, hserves⟩ := race.serves_take turn
  have hsound := h.isSound.store
  refine ⟨h.isSound.take turn, ?_, (hserves.advances hsound).contains h.there, ?_⟩
  · rw [hserves.config hsound]
    exact h.size
  intro provisioner hrunner hname
  obtain ⟨hbefore, -⟩ | ⟨schema, -, -, rfl, -⟩ | ⟨-, old, requests, hold, hschema, hmoves, -⟩ :=
    provisioner_cases hrunner
  · exact h.lists provisioner hbefore hname
  · exact .start name
  · obtain rfl : old.schema.tableName = name := by rw [← hschema, hname]
    exact (h.lists old hold rfl).move hmoves h.isSound.ascending h.size h.there

theorem Notices.play (h : race.Notices runner name) (turns : List Turn) :
    (race.play turns).Notices runner name :=
  play_induction (P := fun race => race.Notices runner name) h fun turn _ _ h => h.take turn

/-- A provisioning that took notice of its table leaves it alone. -/
theorem Notices.eq_existing {schema : Schema} {outcome : ProvisionOutcome}
    (h : race.Notices runner schema.tableName) (hreturns : race.Returns runner schema outcome) :
    outcome = .existing := by
  obtain ⟨provisioner, hrunner, rfl, hresult⟩ := hreturns
  exact (h.lists provisioner hrunner rfl).eq_existing hresult

/-! ## Creations that were granted -/

/-- The creations of a table that were granted. -/
def grants (race : Race) (name : String) : List Asked :=
  race.log.filter fun asked => asked.granted && asked.request.creates name

theorem mem_log_of_grants {asked : Asked} (h : asked ∈ race.grants name) : asked ∈ race.log :=
  (List.mem_filter.1 h).1

/-- What has become of the creations of a table: it was there at the start, or is not there yet, or
was made as one provisioning asked for. -/
inductive Account (start : MemoryStore) (race : Race) (name : String) : Prop
  | old (hthere : start.tables.contains name) (hgrants : race.grants name = [])
  | missing (hmissing : race.store.tables.get? name = none) (hgrants : race.grants name = [])
  | made (hnew : start.tables.contains name = false) {maker : Nat} {provisioner : Provisioner}
      {polls : Nat} (hmaker : race.provisioners[maker]? = some provisioner)
      (hname : provisioner.schema.tableName = name)
      (hgrants : race.grants name = [⟨some maker, .createTable provisioner.schema.createTable, true⟩])
      (htable : race.store.tables.get? name = some (provisioner.schema.provisioned polls))

/-- Whether the creation of a provisioning was refused after that of another one was granted. -/
def IsOvertaken (race : Race) (runner : Nat) (schema : Schema) : Prop :=
  ∃ (other : Nat) (provisioner : Provisioner) (before between after : List Asked),
    other ≠ runner ∧ race.provisioners[other]? = some provisioner ∧
      provisioner.schema.tableName = schema.tableName ∧
      race.log = before ++ ⟨some other, .createTable provisioner.schema.createTable, true⟩ ::
        (between ++ ⟨some runner, .createTable schema.createTable, false⟩ :: after)

theorem Serves.get?_of_none {store after : MemoryStore} {entries : List Asked}
    (h : Serves store entries after) (hsound : store.IsSound)
    (hnone : store.tables.get? name = none)
    (hentries : ∀ asked ∈ entries, asked.granted → asked.request.creates name = false) :
    after.tables.get? name = none := by
  cases h with
  | nothing | refused => exact hnone
  | granted h =>
    cases hget : after.tables.get? name with
    | none => rfl
    | some table =>
      obtain ⟨creation, rfl, rfl, -⟩ := h.creation_of_get? hsound hnone hget
      have hcreates := hentries _ (List.mem_singleton_self _) rfl
      simp [Request.creates] at hcreates

theorem Serves.get?_of_provisioned {store after : MemoryStore} {entries : List Asked}
    (h : Serves store entries after) (hsound : store.IsSound) {schema : Schema} {polls : Nat}
    (hget : store.tables.get? name = some (schema.provisioned polls))
    (hentries : ∀ asked ∈ entries, asked.request.isOnItems = false) :
    ∃ left, after.tables.get? name = some (schema.provisioned left) := by
  cases h with
  | nothing | refused => exact ⟨polls, hget⟩
  | granted h =>
    obtain ⟨storage, -, hstorage, hafter⟩ := h.get?_of_some hsound hget
    rw [hstorage (hentries _ (List.mem_singleton_self _))] at hafter
    exact ⟨_, hafter⟩

theorem grants_of_log {later : Race} {entries : List Asked} (hlog : later.log = race.log ++ entries)
    (hentries : ∀ asked ∈ entries, asked.granted → asked.request.creates name = false) :
    later.grants name = race.grants name := by
  have hnone : entries.filter (fun asked => asked.granted && asked.request.creates name) = [] := by
    apply List.filter_eq_nil_iff.2
    intro asked hmem
    cases hgranted : asked.granted
    · simp
    · simp [hentries asked hmem hgranted]
  rw [grants, hlog, List.filter_append, hnone, List.append_nil, grants]

namespace Account

variable {start : MemoryStore}

/-- Requests other than the creation of a table change nothing about it. -/
theorem keep (h : Account start race name) (hsound : race.store.IsSound) {entries : List Asked}
    (hlog : (race.take turn).log = race.log ++ entries)
    (hserves : Serves race.store entries (race.take turn).store)
    (hentries : ∀ asked ∈ entries,
      asked.request.isOnItems = false ∧ (asked.granted → asked.request.creates name = false)) :
    Account start (race.take turn) name := by
  have hgrants : (race.take turn).grants name = race.grants name :=
    grants_of_log hlog fun asked hmem => (hentries asked hmem).2
  cases h with
  | old hthere hnone => exact .old hthere (hgrants.trans hnone)
  | missing hmissing hnone =>
    refine .missing ?_ (hgrants.trans hnone)
    exact hserves.get?_of_none hsound hmissing fun asked hmem => (hentries asked hmem).2
  | made hnew hmaker hname hone htable =>
    obtain ⟨later, hlater, hschema⟩ := exists_provisioner_take hmaker turn
    obtain ⟨left, hget⟩ := hserves.get?_of_provisioned hsound htable
      fun asked hmem => (hentries asked hmem).1
    rw [← hschema] at hname hone hget
    exact .made hnew hlater hname (hgrants.trans hone) hget

/-- A creation that is granted makes the table. -/
theorem create (h : Account start race name) (hadvances : start.Advances race.store)
    {schema : Schema} {state next : Provisioning}
    (hrunner : race.provisioners[runner]? = some ⟨schema, state⟩) (hname : schema.tableName = name)
    (hfree : race.store.tables.get? name = none) :
    Account start (race.moved runner ⟨schema, state⟩ next [(.createTable schema.createTable, true)]
      (race.store.setTable (schema.provisioned race.store.config.activationPolls))) name := by
  have hnone : race.grants name = [] := by
    cases h with
    | old _ hnone | missing _ hnone => exact hnone
    | made _ _ _ _ htable =>
      rw [hfree] at htable
      cases htable
  have hnew : start.tables.contains name = false := by
    cases hthere : start.tables.contains name with
    | false => rfl
    | true =>
      have hlater := hadvances.contains hthere
      simp [OrderedMap.contains, hfree] at hlater
  have htable : (race.store.setTable (schema.provisioned
      race.store.config.activationPolls)).tables.get? name = some _ :=
    MemoryStore.get?_setTable.trans (if_pos hname.symm)
  refine .made hnew (getElem?_moved hrunner) hname ?_ htable
  have hcreates : Request.creates name (.createTable schema.createTable) = true := by
    simpa [Request.creates, Schema.createTable] using hname
  unfold grants at hnone ⊢
  simp [moved, entries, hnone, hcreates]

/-- The turn of a provisioning. -/
theorem go (h : Account start race name) (hsound : race.store.IsSound)
    (hadvances : start.Advances race.store) (runner : Nat) :
    Account start (race.take (.go runner)) name := by
  have htake : race.take (.go runner) = race.go runner := rfl
  obtain ⟨hsame, -⟩ | ⟨⟨schema, state⟩, next, requests, store, hrunner, hmoves, hafter⟩ :=
    race.go_cases runner
  · rwa [htake, hsame]
  have hkeep (hrequests : ∀ request granted, (request, granted) ∈ requests →
      request.isOnItems = false ∧ (granted → request.creates name = false)) :
      Account start (race.take (.go runner)) name := by
    have hlog : (race.take (.go runner)).log = race.log ++ entries runner requests :=
      congrArg Race.log hafter
    refine h.keep hsound hlog ?_ ?_
    · rw [htake, hafter]
      exact serves_of_moves hmoves runner
    · intro asked hmem
      obtain ⟨⟨request, granted⟩, hrequest, rfl⟩ := List.mem_map.1 hmem
      exact hrequests request granted hrequest
  cases hmoves with
  | create hlisted hfree =>
    by_cases hname : schema.tableName = name
    · rw [htake, hafter]
      exact h.create hadvances hrunner hname (hname ▸ hfree)
    · apply hkeep
      simp [Request.isOnItems, Request.creates, Schema.createTable, hname]
  | page | refused | look | lost | sleep =>
    apply hkeep
    simp [Request.isOnItems, Request.creates]

theorem take (h : Account start race name) (hsound : race.store.IsSound)
    (hadvances : start.Advances race.store)
    (hother : ∀ request, turn = .other request →
      request.isOnItems = false ∧ request.creates name = false) :
    Account start (race.take turn) name := by
  cases turn with
  | start schema =>
    have hlog : (race.take (.start schema)).log = race.log ++ [] := (List.append_nil _).symm
    exact h.keep hsound hlog .nothing (by simp)
  | go runner => exact h.go hsound hadvances runner
  | other request =>
    obtain ⟨entries, hlog, hserves⟩ := race.serves_take (.other request)
    refine h.keep hsound hlog hserves ?_
    obtain ⟨hitems, hcreates⟩ := hother request rfl
    have hentries : race.log ++ [⟨none, request, _⟩] = race.log ++ entries := hlog
    rw [← List.append_cancel_left hentries]
    simp [hitems, hcreates]

end Account

/-! ## What the outcomes tell -/

/-- What the log tells of a provisioning: while it has no outcome it has created nothing, and an
outcome other than `existing` comes from its own creation. -/
structure Records (race : Race) (runner : Nat) (schema : Schema) (state : Provisioning) : Prop where
  listing : state.outcome? = none → ∀ asked ∈ race.log, asked.asker = some runner →
    asked.request.creates schema.tableName = false
  created : state.outcome? = some .created →
    ⟨some runner, .createTable schema.createTable, true⟩ ∈ race.log
  elsewhere : state.outcome? = some .createdElsewhere → race.IsOvertaken runner schema

theorem IsOvertaken.take {schema : Schema} (h : race.IsOvertaken runner schema) (turn : Turn) :
    (race.take turn).IsOvertaken runner schema := by
  obtain ⟨other, provisioner, before, between, after, hne, hother, hname, hlog⟩ := h
  obtain ⟨later, hlater, hschema⟩ := exists_provisioner_take hother turn
  obtain ⟨entries, hentries, -⟩ := race.serves_take turn
  refine ⟨other, later, before, between, after ++ entries, hne, hlater, ?_, ?_⟩
  · rw [hschema, hname]
  · rw [hentries, hlog, hschema]
    simp

theorem Records.keep {schema : Schema} {state next : Provisioning}
    (h : race.Records runner schema state) {entries : List Asked}
    (hlog : (race.take turn).log = race.log ++ entries)
    (hentries : ∀ asked ∈ entries, asked.asker = some runner →
      asked.request.creates schema.tableName = false)
    (hnext : next.outcome? = state.outcome?) : (race.take turn).Records runner schema next where
  listing hnone asked hmem hasker := by
    rw [hlog] at hmem
    obtain hmem | hmem := List.mem_append.1 hmem
    · exact h.listing (hnext ▸ hnone) asked hmem hasker
    · exact hentries asked hmem hasker
  created hcreated := by
    rw [hlog]
    exact List.mem_append_left _ (h.created (hnext ▸ hcreated))
  elsewhere helsewhere := (h.elsewhere (hnext ▸ helsewhere)).take turn

/-- What holds of a race at all times, where some names are those of the provisioned tables. -/
structure IsOrderly (start : MemoryStore) (names : String → Prop) (race : Race) : Prop where
  isSound : race.IsSound
  size : 1 ≤ race.store.config.namesPageSize
  advances : start.Advances race.store
  askers : ∀ asked ∈ race.log, ∀ runner ∈ asked.asker, runner < race.provisioners.length
  named : ∀ provisioner ∈ race.provisioners, names provisioner.schema.tableName
  notices : ∀ runner name, start.tables.contains name → race.Notices runner name
  accounts : ∀ name, names name → Account start race name
  records : ∀ runner provisioner, race.provisioners[runner]? = some provisioner →
    race.Records runner provisioner.schema provisioner.state

end Race

/-- Whether a turn is that of a provisioning of one of some tables, or creates none of them and
touches no items. -/
def Race.Turn.Spares (names : String → Prop) : Turn → Prop
  | start schema => names schema.tableName
  | go _ => True
  | other request => request.isOnItems = false ∧ ∀ name, names name → request.creates name = false

namespace Race.IsOrderly

variable {start : MemoryStore} {names : String → Prop} {race : Race} {runner : Nat} {turn : Turn}

/-- A creation is refused after that of another provisioning was granted. -/
theorem isOvertaken (h : race.IsOrderly start names) {schema : Schema} {listed : List String}
    (hrunner : race.provisioners[runner]? = some ⟨schema, .listing (.finished (.ok listed))⟩)
    (hlisted : schema.tableName ∉ listed) {table : MemoryTable}
    (htaken : race.store.tables.get? schema.tableName = some table)
    (hlog : (race.take turn).log =
      race.log ++ [⟨some runner, .createTable schema.createTable, false⟩]) :
    (race.take turn).IsOvertaken runner schema := by
  have hname : names schema.tableName := h.named _ (List.mem_of_getElem? hrunner)
  cases h.accounts _ hname with
  | old hthere => exact absurd ((h.notices runner _ hthere).lists _ hrunner rfl) hlisted
  | missing hmissing =>
    rw [htaken] at hmissing
    cases hmissing
  | @made hnew maker provisioner polls hmaker hname' hgrants =>
    have hmem : ⟨some maker, .createTable provisioner.schema.createTable, true⟩ ∈ race.log :=
      mem_log_of_grants (hgrants ▸ List.mem_singleton_self _)
    have hne : maker ≠ runner := by
      rintro rfl
      have hcreates := (h.records _ _ hrunner).listing rfl _ hmem rfl
      simp [Request.creates, Schema.createTable, hname'] at hcreates
    obtain ⟨before, between, hsplit⟩ := List.append_of_mem hmem
    obtain ⟨later, hlater, hschema⟩ := exists_provisioner_take hmaker turn
    refine ⟨maker, later, before, between, [], hne, hlater, by rw [hschema, hname'], ?_⟩
    rw [hlog, hsplit, hschema]
    simp

/-- What the log tells of a provisioning is kept. -/
theorem records_take (h : race.IsOrderly start names) {provisioner : Provisioner}
    (hrunner : (race.take turn).provisioners[runner]? = some provisioner) :
    (race.take turn).Records runner provisioner.schema provisioner.state := by
  obtain ⟨hbefore, entries, hlog, hentries⟩ | ⟨schema, -, rfl, rfl, hlog⟩ |
    ⟨-, ⟨schema, state⟩, requests, hold, hschema, hmoves, hlog⟩ := provisioner_cases hrunner
  · refine (h.records _ _ hbefore).keep hlog ?_ rfl
    intro asked hmem hasker
    exact absurd hasker (hentries asked hmem)
  · refine ⟨?_, nofun, nofun⟩
    intro _ asked hmem hasker
    have hlt := h.askers asked (hlog ▸ hmem) _ hasker
    omega
  · have hrecords := h.records _ _ hold
    have hpassed (hrequests : ∀ request granted, (request, granted) ∈ requests →
        request.creates schema.tableName = false)
        (hnext : provisioner.state.outcome? = state.outcome?) :
        (race.take turn).Records runner schema provisioner.state := by
      refine hrecords.keep hlog ?_ hnext
      intro asked hmem _
      obtain ⟨⟨request, granted⟩, hrequest, rfl⟩ := List.mem_map.1 hmem
      exact hrequests request granted hrequest
    obtain ⟨_, next⟩ := provisioner
    obtain rfl := hschema
    simp only at hmoves hpassed ⊢
    generalize (race.take turn).store = after at hmoves
    cases hmoves with
    | page =>
      apply hpassed (by simp [Request.creates])
      rw [NameListing.receive]
      split <;> rfl
    | create =>
      refine ⟨by simp, ?_, by simp⟩
      intro _
      simp [hlog, entries]
    | refused hlisted htaken =>
      refine ⟨by simp, by simp, ?_⟩
      intro _
      exact h.isOvertaken hold hlisted htaken hlog
    | look | lost | sleep => exact hpassed (by simp [Request.creates]) rfl

/-- The log names no provisioning that has not joined the race. -/
theorem askers_take (h : race.IsOrderly start names) (turn : Turn) :
    ∀ asked ∈ (race.take turn).log, ∀ runner ∈ asked.asker,
      runner < (race.take turn).provisioners.length := by
  intro asked hmem runner hasker
  cases turn with
  | start schema =>
    have hlt := h.askers asked hmem runner hasker
    simp only [Race.take, List.length_append]
    omega
  | go other =>
    have htake : race.take (.go other) = race.go other := rfl
    obtain ⟨hsame, -⟩ | ⟨provisioner, state, requests, store, hother, -, hafter⟩ := race.go_cases other
    · rw [htake, hsame] at hmem ⊢
      exact h.askers asked hmem runner hasker
    · rw [htake, hafter] at hmem ⊢
      simp only [moved, List.length_set]
      obtain hmem | hmem := List.mem_append.1 hmem
      · exact h.askers asked hmem runner hasker
      · obtain ⟨request, -, rfl⟩ := List.mem_map.1 hmem
        cases hasker
        exact (List.getElem?_eq_some_iff.1 hother).1
  | other request =>
    have hlog : (race.take (.other request)).log = race.log ++ [⟨none, request, _⟩] := rfl
    rw [hlog] at hmem
    obtain hmem | hmem := List.mem_append.1 hmem
    · exact h.askers asked hmem runner hasker
    · cases List.mem_singleton.1 hmem
      cases hasker

theorem take (h : race.IsOrderly start names) (hturn : turn.Spares names) :
    (race.take turn).IsOrderly start names where
  isSound := h.isSound.take turn
  size := by
    obtain ⟨entries, -, hserves⟩ := race.serves_take turn
    rw [hserves.config h.isSound.store]
    exact h.size
  advances := by
    obtain ⟨entries, -, hserves⟩ := race.serves_take turn
    exact h.advances.trans (hserves.advances h.isSound.store)
  askers := h.askers_take turn
  named provisioner hmem := by
    obtain ⟨runner, hrunner⟩ := List.mem_iff_getElem?.1 hmem
    obtain ⟨hbefore, -⟩ | ⟨schema, rfl, -, rfl, -⟩ | ⟨-, old, requests, hold, hschema, -⟩ :=
      provisioner_cases hrunner
    · exact h.named _ (List.mem_of_getElem? hbefore)
    · exact hturn
    · rw [hschema]
      exact h.named _ (List.mem_of_getElem? hold)
  notices runner name hname := (h.notices runner name hname).take turn
  accounts name hname := by
    apply (h.accounts name hname).take h.isSound.store h.advances
    rintro request rfl
    exact ⟨hturn.1, hturn.2 name hname⟩
  records runner provisioner hrunner := h.records_take hrunner

theorem play {turns : List Turn} (h : race.IsOrderly start names)
    (hturns : ∀ turn ∈ turns, turn.Spares names) : (race.play turns).IsOrderly start names :=
  play_induction h fun turn hmem _ h => h.take (hturns turn hmem)

/-- A race starts out orderly. -/
theorem of_start {store : MemoryStore} (hreached : (MemoryStore.empty store.config).Reaches store)
    (hsize : 1 ≤ store.config.namesPageSize) (names : String → Prop) :
    IsOrderly store names { store } := by
  have hsound : Race.IsSound { store } := by
    refine ⟨hreached.isSound (MemoryStore.isSound_empty _), ?_, by simp⟩
    exact hreached.isAscending .nil
  refine ⟨hsound, hsize, .refl store, by simp, by simp, ?_, ?_, by simp⟩
  · intro runner name hthere
    exact ⟨hsound, hsize, hthere, by simp⟩
  · intro name _
    cases hthere : store.tables.get? name with
    | none => exact .missing hthere rfl
    | some table => exact .old (by simp [OrderedMap.contains, hthere]) rfl

variable {schema : Schema} {outcome : ProvisionOutcome}

/-- A provisioning that is over listed its table, or has another outcome. -/
theorem cases_of_returns (h : race.IsOrderly start names)
    (hreturns : race.Returns runner schema outcome) :
    (outcome = .existing ∧ ∃ listed, schema.tableName ∈ listed ∧
      race.provisioners[runner]? = some ⟨schema, .listing (.finished (.ok listed))⟩) ∨
    (outcome ≠ .existing ∧ ∃ state, race.provisioners[runner]? = some ⟨schema, state⟩ ∧
      state.outcome? = some outcome) := by
  obtain ⟨⟨schema, state⟩, hrunner, rfl, hresult⟩ := hreturns
  cases h.isSound.stages _ (List.mem_of_getElem? hrunner) with
  | reading => cases hresult
  | @listed listed =>
    by_cases hlisted : schema.tableName ∈ listed
    · rw [Provisioner.result?, Provisioner.next_of_mem hlisted] at hresult
      cases hresult
      exact .inl ⟨rfl, listed, hlisted, hrunner⟩
    · rw [Provisioner.result?, Provisioner.next_of_not_mem hlisted] at hresult
      cases hresult
  | awaiting hnew hthere hstate => obtain rfl | rfl := hstate <;> cases hresult
  | active hnew | unawaited hnew =>
    cases hresult
    exact .inr ⟨hnew, _, hrunner, rfl⟩

theorem records_of_returns (h : race.IsOrderly start names)
    (hreturns : race.Returns runner schema outcome) (hnew : outcome ≠ .existing) :
    ∃ state, race.Records runner schema state ∧ state.outcome? = some outcome := by
  obtain ⟨hold, -⟩ | ⟨-, state, hrunner, houtcome⟩ := h.cases_of_returns hreturns
  · exact absurd hold hnew
  · exact ⟨state, h.records _ _ hrunner, houtcome⟩

theorem named_of_returns (h : race.IsOrderly start names)
    (hreturns : race.Returns runner schema outcome) : names schema.tableName := by
  obtain ⟨provisioner, hrunner, rfl, -⟩ := hreturns
  exact h.named provisioner (List.mem_of_getElem? hrunner)

/-- A provisioning that has not read a page yet will take notice of a table that is there. -/
theorem notices_of_start (h : race.IsOrderly start names) {name : String}
    (hthere : race.store.tables.contains name)
    (hbegins : ∀ provisioner, race.provisioners[runner]? = some provisioner →
      provisioner.state = .start) : race.Notices runner name := by
  refine ⟨h.isSound, h.size, hthere, ?_⟩
  intro provisioner hrunner _
  rw [hbegins provisioner hrunner]
  exact .start name

/-- The creation of a provisioning that created its table was granted. -/
theorem mem_grants_of_created (h : race.IsOrderly start names)
    (hreturns : race.Returns runner schema .created) :
    ⟨some runner, .createTable schema.createTable, true⟩ ∈ race.grants schema.tableName := by
  obtain ⟨state, hrecords, houtcome⟩ := h.records_of_returns hreturns (by simp)
  refine List.mem_filter.2 ⟨hrecords.created houtcome, ?_⟩
  simp [Request.creates, Schema.createTable]

/-- A table has one creation that was granted at most. -/
theorem eq_of_mem_grants (h : race.IsOrderly start names) {name : String} (hname : names name)
    {asked other : Asked} (hmem : asked ∈ race.grants name) (hmem' : other ∈ race.grants name) :
    asked = other := by
  cases h.accounts name hname with
  | old _ hgrants | missing _ hgrants =>
    rw [hgrants] at hmem
    cases hmem
  | made _ _ _ hgrants =>
    rw [hgrants] at hmem hmem'
    rw [List.mem_singleton.1 hmem, List.mem_singleton.1 hmem']

/-- The table of a provisioning that is over is there. -/
theorem get?_of_returns (h : race.IsOrderly start names)
    (hreturns : race.Returns runner schema outcome) :
    ∃ table, race.store.tables.get? schema.tableName = some table := by
  obtain ⟨provisioner, hrunner, rfl, hresult⟩ := hreturns
  have hstage := h.isSound.stages _ (List.mem_of_getElem? hrunner)
  obtain ⟨_, -, table, htable, -⟩ := hstage.of_result? hresult
  exact ⟨table, htable⟩

end Race.IsOrderly

end KeyedStore
