import KeyedStore.Proofs.Connector.Races

/-!
# Provisionings in a race

What is known of the store in each state of a provisioning (`Provisioning.Stage`) is kept by the
turns of all others. So no provisioning fails, and each returns after some turns of its own. One that
has no others to race with is what a connector runs when it provisions a table.
-/
namespace KeyedStore

/-! ## What is known in each state -/

/-- What is known of the store in each state of a provisioning. None of them is a failure. -/
inductive Provisioning.Stage (schema : Schema) (store : MemoryStore) : Provisioning → Prop
  | reading {startAfter : Option String} {names : List String}
      (hnames : ∀ name ∈ names, store.tables.contains name) :
      Stage schema store (.listing (.reading startAfter names))
  | listed {names : List String} (hnames : ∀ name ∈ names, store.tables.contains name) :
      Stage schema store (.listing (.finished (.ok names)))
  | awaiting {outcome : ProvisionOutcome} {activation : Activation} (hnew : outcome ≠ .existing)
      (hthere : store.tables.contains schema.tableName)
      (hstate : activation = .looking ∨ activation = .pausing) :
      Stage schema store (.activating outcome activation)
  | active {outcome : ProvisionOutcome} {table : MemoryTable} (hnew : outcome ≠ .existing)
      (hthere : store.tables.get? schema.tableName = some table)
      (hactive : table.pendingPolls = 0) :
      Stage schema store (.activating outcome (.finished (.ok ())))
  | unawaited {outcome : ProvisionOutcome} (hnew : outcome ≠ .existing)
      (hthere : store.tables.contains schema.tableName)
      (hwait : schema.settings.activation.waitUntilActive = false) :
      Stage schema store (.finished (.ok outcome))

namespace Provisioning.Stage

variable {schema : Schema} {store after : MemoryStore} {state next : Provisioning}

theorem mono (h : Stage schema store state) (hadvances : store.Advances after) :
    Stage schema after state := by
  cases h with
  | reading hnames => exact .reading fun name hname => hadvances.contains (hnames name hname)
  | listed hnames => exact .listed fun name hname => hadvances.contains (hnames name hname)
  | awaiting hnew hthere hstate => exact .awaiting hnew (hadvances.contains hthere) hstate
  | active hnew hthere hactive =>
    obtain ⟨later, hlater, hpolls⟩ := hadvances.tables hthere
    exact .active hnew hlater (by omega)
  | unawaited hnew hthere hwait => exact .unawaited hnew (hadvances.contains hthere) hwait

theorem await {outcome : ProvisionOutcome} (hnew : outcome ≠ .existing)
    (hthere : store.tables.contains schema.tableName) :
    Stage schema store (.await schema outcome) := by
  unfold Provisioning.await
  split
  case isTrue => exact .awaiting hnew hthere (.inl rfl)
  case isFalse hwait => exact .unawaited hnew hthere (by simpa using hwait)

theorem move {requests : List (Request × Bool)} (h : Stage schema store state)
    (hmoves : Moves schema store state next requests after) (hsound : store.IsSound) :
    Stage schema after next := by
  have hadvances := (Race.serves_of_moves hmoves 0).advances hsound
  cases hmoves with
  | @page startAfter names page hpage =>
    have hnames : ∀ name ∈ names ++ page.names, store.tables.contains name := by
      cases h with
      | reading hnames =>
        intro name hname
        obtain hname | hname := List.mem_append.1 hname
        · exact hnames name hname
        · exact MemoryStore.contains_of_listTables hpage name hname
    rw [NameListing.receive]
    split
    · exact .reading hnames
    · exact .listed hnames
  | create hlisted hfree =>
    apply await (by simp)
    have hget : (store.setTable (schema.provisioned store.config.activationPolls)).tables.get?
        schema.tableName = some _ := MemoryStore.get?_setTable.trans (if_pos rfl)
    simp [OrderedMap.contains, hget]
  | refused hlisted htaken =>
    apply await (by simp)
    simp [OrderedMap.contains, htaken]
  | @look outcome table hfound =>
    cases h with
    | awaiting hnew hthere hstate =>
      split
      case isTrue hactive =>
        obtain ⟨later, hlater, hpolls⟩ := hadvances.tables hfound
        have hzero : table.pendingPolls = 0 := by simpa [MemoryTable.status] using hactive
        exact .active hnew hlater (by omega)
      case isFalse => exact .awaiting hnew (hadvances.contains hthere) (.inr rfl)
  | lost error hmissing =>
    cases h with
    | awaiting hnew hthere hstate => simp [OrderedMap.contains, hmissing] at hthere
  | sleep =>
    cases h with
    | awaiting hnew hthere hstate => exact .awaiting hnew hthere (.inl rfl)

/-- Where a provisioning is over it has not failed. The table exists, and is active if it was new
and had to be waited for. -/
theorem of_result? {result : Except ConnectorError ProvisionOutcome}
    (h : Stage schema store state) (hresult : Provisioner.result? ⟨schema, state⟩ = some result) :
    ∃ outcome, result = .ok outcome ∧ ∃ table,
      store.tables.get? schema.tableName = some table ∧
        (outcome ≠ .existing → schema.settings.activation.waitUntilActive →
          table.pendingPolls = 0) := by
  cases h with
  | reading hnames => cases hresult
  | @listed names hnames =>
    rw [Provisioner.result?] at hresult
    by_cases hlisted : schema.tableName ∈ names
    · rw [Provisioner.next_of_mem hlisted] at hresult
      cases hresult
      obtain ⟨table, htable⟩ := Option.isSome_iff_exists.1 (hnames schema.tableName hlisted)
      exact ⟨.existing, rfl, table, htable, by simp⟩
    · rw [Provisioner.next_of_not_mem hlisted] at hresult
      cases hresult
  | awaiting hnew hthere hstate => obtain rfl | rfl := hstate <;> cases hresult
  | @active outcome table hnew hthere hactive =>
    cases hresult
    exact ⟨outcome, rfl, table, hthere, fun _ _ => hactive⟩
  | @unawaited outcome hnew hthere hwait =>
    cases hresult
    obtain ⟨table, htable⟩ := Option.isSome_iff_exists.1 hthere
    refine ⟨outcome, rfl, table, htable, ?_⟩
    intro _ hwaits
    rw [hwait] at hwaits
    cases hwaits

end Provisioning.Stage

/-- The invariant of a race. -/
structure Race.IsSound (race : Race) : Prop where
  store : race.store.IsSound
  ascending : race.store.tables.IsAscending
  stages : ∀ provisioner ∈ race.provisioners,
    provisioner.state.Stage provisioner.schema race.store

namespace Race

variable {race : Race}

theorem Serves.isSound {store after : MemoryStore} {entries : List Asked}
    (h : Serves store entries after) (hsound : store.IsSound) : after.IsSound := by
  cases h with
  | nothing | refused => exact hsound
  | granted h => exact h.effect.isSound hsound

theorem Serves.isAscending {store after : MemoryStore} {entries : List Asked}
    (h : Serves store entries after) (hascending : store.tables.IsAscending) :
    after.tables.IsAscending := by
  cases h with
  | nothing | refused => exact hascending
  | granted h => exact h.isAscending hascending

/-- The invariant is kept by every turn. -/
theorem IsSound.take (h : race.IsSound) (turn : Turn) : (race.take turn).IsSound := by
  obtain ⟨entries, -, hserves⟩ := race.serves_take turn
  refine ⟨hserves.isSound h.store, hserves.isAscending h.ascending, ?_⟩
  have hadvances := hserves.advances h.store
  intro provisioner hmem
  obtain ⟨runner, hrunner⟩ := List.mem_iff_getElem?.1 hmem
  obtain ⟨hbefore, -⟩ | ⟨schema, -, -, rfl, -⟩ | ⟨-, old, requests, hold, hschema, hmoves, -⟩ :=
    provisioner_cases hrunner
  · exact (h.stages provisioner (List.mem_of_getElem? hbefore)).mono hadvances
  · exact .reading (by simp)
  · rw [hschema]
    exact (h.stages old (List.mem_of_getElem? hold)).move hmoves h.store

theorem IsSound.play (h : race.IsSound) (turns : List Turn) : (race.play turns).IsSound :=
  play_induction h fun turn _ _ h => h.take turn

/-- Whether a provisioning for a schema is over, with an outcome. -/
def Returns (race : Race) (runner : Nat) (schema : Schema) (outcome : ProvisionOutcome) : Prop :=
  ∃ provisioner, race.provisioners[runner]? = some provisioner ∧ provisioner.schema = schema ∧
    provisioner.result? = some (.ok outcome)

/-- What a provisioning has returned stays. -/
theorem Returns.play {runner : Nat} {schema : Schema} {outcome : ProvisionOutcome}
    (h : race.Returns runner schema outcome) (turns : List Turn) :
    (race.play turns).Returns runner schema outcome := by
  obtain ⟨provisioner, hrunner, hschema, hresult⟩ := h
  have hlater : (race.play turns).provisioners[runner]? = some provisioner :=
    play_induction (P := fun race => race.provisioners[runner]? = some provisioner) hrunner
      fun turn _ _ h => provisioner_take_of_result? h hresult turn
  exact ⟨provisioner, hlater, hschema, hresult⟩

end Race

/-! ## Provisionings end -/

/-- How many looks a table, or one that is new, needs until it is active. -/
def MemoryStore.pollsLeft (store : MemoryStore) (name : String) : Nat :=
  match store.tables.get? name with
  | some table => table.pendingPolls
  | none => store.config.activationPolls

/-- How many turns in a row a provisioning needs at most. -/
def Provisioning.turnsLeft (schema : Schema) (store : MemoryStore) : Provisioning → Nat
  | listing (.reading startAfter _) =>
    2 * store.pollsLeft schema.tableName + (store.namesAfter startAfter).length + 3
  | listing (.finished _) | activating _ .pausing => 2 * store.pollsLeft schema.tableName + 2
  | activating _ .looking => 2 * store.pollsLeft schema.tableName + 1
  | activating _ (.finished _) | finished _ => 0

namespace Provisioning

variable {schema : Schema} {store after : MemoryStore} {state next : Provisioning}

theorem turnsLeft_await (schema : Schema) (store : MemoryStore) (outcome : ProvisionOutcome) :
    (await schema outcome).turnsLeft schema store ≤ 2 * store.pollsLeft schema.tableName + 1 := by
  unfold await
  split
  · exact Nat.le_refl _
  · exact Nat.zero_le _

/-- A turn brings a provisioning closer to its end. -/
theorem Moves.turnsLeft_lt {requests : List (Request × Bool)}
    (h : Moves schema store state next requests after) (hsound : store.IsSound) :
    next.turnsLeft schema after < state.turnsLeft schema store := by
  cases h with
  | @page startAfter names page hpage =>
    rw [NameListing.receive]
    split
    case h_1 last hlast =>
      have hlt := MemoryStore.length_namesAfter_lt hpage hlast
      simp only [turnsLeft]
      omega
    case h_2 => grind [turnsLeft]
  | create hlisted hfree =>
    have hpolls : (store.setTable (schema.provisioned store.config.activationPolls)).pollsLeft
        schema.tableName = store.pollsLeft schema.tableName := by
      simp [MemoryStore.pollsLeft, MemoryStore.get?_setTable, Schema.provisioned, hfree]
    have hle := turnsLeft_await schema
      (store.setTable (schema.provisioned store.config.activationPolls)) .created
    rw [hpolls] at hle
    exact Nat.lt_succ_of_le hle
  | refused => exact Nat.lt_succ_of_le (turnsLeft_await schema store .createdElsewhere)
  | @look outcome table hfound =>
    have hname : table.name = schema.tableName := hsound.name hfound
    have hbefore : store.pollsLeft schema.tableName = table.pendingPolls := by
      simp [MemoryStore.pollsLeft, hfound]
    have hafter : (store.setTable table.poll.2).pollsLeft schema.tableName =
        table.pendingPolls - 1 := by
      simp [MemoryStore.pollsLeft, MemoryStore.get?_setTable, hname, MemoryTable.poll]
    split
    case isTrue => exact Nat.succ_pos _
    case isFalse hactive =>
      have hpolls : ¬table.pendingPolls = 0 := by simpa [MemoryTable.status] using hactive
      simp only [turnsLeft]
      omega
  | lost => exact Nat.succ_pos _
  | sleep => exact Nat.lt_succ_self _

end Provisioning

namespace Race

variable {race : Race} {runner : Nat}

/-- A provisioning returns after some turns of its own. -/
theorem IsSound.exists_returns (h : race.IsSound) {provisioner : Provisioner}
    (hrunner : race.provisioners[runner]? = some provisioner) :
    ∃ turns, turns ≤ provisioner.state.turnsLeft provisioner.schema race.store ∧
      ∃ outcome, (race.play (List.replicate turns (.go runner))).Returns runner
        provisioner.schema outcome := by
  generalize hleft : provisioner.state.turnsLeft provisioner.schema race.store = left
  induction left using Nat.strongRecOn generalizing race provisioner with
  | ind left ih =>
  obtain ⟨-, hover⟩ | ⟨old, next, requests, store, hold, hmoves, hafter⟩ := race.go_cases runner
  · obtain ⟨result, hresult⟩ := Option.isSome_iff_exists.1 (hover provisioner hrunner)
    have hstage := h.stages provisioner (List.mem_of_getElem? hrunner)
    obtain ⟨outcome, rfl, -⟩ := hstage.of_result? hresult
    exact ⟨0, Nat.zero_le _, outcome, provisioner, hrunner, rfl, hresult⟩
  · obtain rfl : old = provisioner := Option.some.inj (hold.symm.trans hrunner)
    have hlt := hmoves.turnsLeft_lt h.store
    have hlater : (race.go runner).provisioners[runner]? = some { old with state := next } :=
      hafter ▸ getElem?_moved hrunner
    have hstore : (race.go runner).store = store := by rw [hafter]; rfl
    obtain ⟨turns, hturns, outcome, hreturns⟩ :=
      ih _ (hleft ▸ hlt) (h.take (.go runner)) hlater (congrArg (next.turnsLeft old.schema) hstore)
    exact ⟨turns + 1, by omega, outcome, hreturns⟩

/-! ## Provisioning without a race -/

/-- A process that provisions a table takes the turns of a provisioning, with nothing in between. -/
theorem exists_play_of_runFor {schema : Schema} {state : Provisioning} {steps : Nat}
    {outcome : ProvisionOutcome} {after : MemoryStore}
    (hrunner : race.provisioners[runner]? = some ⟨schema, state⟩)
    (h : (MemoryStore.service.runFor (Provisioning.next schema) steps state).run.run race.store =
      (.ok outcome, after)) :
    ∃ turns, turns ≤ steps ∧
      (race.play (List.replicate turns (.go runner))).Returns runner schema outcome ∧
      (race.play (List.replicate turns (.go runner))).store = after := by
  induction steps generalizing race state with
  | zero => cases h
  | succ steps ih =>
    have hgo {next : Provisioning} {requests : List (Request × Bool)} {store : MemoryStore}
        (hafter : race.go runner = race.moved runner ⟨schema, state⟩ next requests store)
        (hrest : (MemoryStore.service.runFor (Provisioning.next schema) steps next).run.run store =
          (.ok outcome, after)) :
        ∃ turns, turns ≤ steps + 1 ∧
          (race.play (List.replicate turns (.go runner))).Returns runner schema outcome ∧
          (race.play (List.replicate turns (.go runner))).store = after := by
      obtain ⟨turns, hturns, hreturns⟩ := ih (getElem?_moved hrunner) hrest
      rw [← hafter] at hreturns
      exact ⟨turns + 1, by omega, hreturns⟩
    cases hnext : state.next schema with
    | finish result =>
      rw [Service.runFor, hnext] at h
      cases result with
      | ok a =>
        cases h
        exact ⟨0, by omega, ⟨_, hrunner, rfl, by simp [Provisioner.result?, Provisioner.next, hnext]⟩,
          rfl⟩
      | error error => cases h
    | ask request resume =>
      rw [Service.runFor_ask hnext] at h
      exact hgo (go_of_ask hrunner hnext) h
    | sleep milliseconds next =>
      rw [Service.runFor, hnext] at h
      exact hgo (go_of_sleep hrunner hnext) h

/-- Provisioning a table on a store is a race of one. -/
theorem exists_play_of_provision {schema : Schema} {outcome : ProvisionOutcome}
    {store after : MemoryStore}
    (h : (Connector.local.provision schema).run.run store = (.ok outcome, after)) :
    ∃ turns, (play { store } (.start schema :: List.replicate turns (.go 0))).Returns 0 schema
        outcome ∧
      (play { store } (.start schema :: List.replicate turns (.go 0))).store = after := by
  have hrunner : (take { store } (.start schema)).provisioners[0]? = some ⟨schema, .start⟩ := rfl
  have hrun : (MemoryStore.service.runFor (Provisioning.next schema) store.steps .start).run.run
      (take { store } (.start schema)).store = (.ok outcome, after) := by
    rw [← h, Connector.provision, Connector.local, Service.run_eq]
    rfl
  obtain ⟨turns, -, hreturns⟩ := exists_play_of_runFor hrunner hrun
  exact ⟨turns, hreturns⟩

end Race

end KeyedStore
