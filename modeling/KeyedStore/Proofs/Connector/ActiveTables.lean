import KeyedStore.Proofs.Connector.ProvisioningStages

/-!
# Tables that are active

Any number of connectors share a store. Each defines models, which may be provisioned in the
background, and makes sure of their tables.

A table that was created, by a provisioning or elsewhere, is waited for. One that was listed is not,
so it is active only if it was looked at often enough.

## Main definitions

* `Fleet` — connectors on one store.
* `Fleet.Assures` — a provisioning, or a call that makes sure of a table, has returned.
-/
namespace KeyedStore

namespace Race

variable {config : MemoryConfig} {race : Race} {runner : Nat} {schema : Schema}

/-! ## Looks at tables -/

/-- How often a table was looked at. -/
def looks (race : Race) (name : String) : Nat :=
  race.log.countP fun asked => asked.granted && asked.request.looksAt name

/-- Whether all tables are new and their looks bring them closer to being active. -/
structure IsCounted (config : MemoryConfig) (race : Race) : Prop where
  sameConfig : race.store.config = config
  found : ∀ {name table}, race.store.tables.get? name = some table →
    table.pendingPolls = config.activationPolls - race.looks name
  missing : ∀ {name}, race.store.tables.get? name = none → race.looks name = 0

theorem IsCounted.take (h : race.IsCounted config) (hsound : race.store.IsSound) (turn : Turn) :
    (race.take turn).IsCounted config := by
  obtain ⟨entries, hlog, hserves⟩ := race.serves_take turn
  have hlooks (name : String) : (race.take turn).looks name =
      race.looks name + entries.countP fun asked => asked.granted && asked.request.looksAt name := by
    simp [looks, hlog, List.countP_append]
  refine ⟨(hserves.config hsound).trans h.sameConfig, ?_, ?_⟩
  · intro name table hget
    rw [hlooks]
    generalize (race.take turn).store = after at hserves hget
    cases hserves with
    | nothing | refused => simpa using h.found hget
    | @granted asker request after hchange =>
      cases hbefore : race.store.tables.get? name with
      | some old =>
        obtain ⟨storage, -, -, hafter⟩ := hchange.get?_of_some hsound hbefore
        rw [hget] at hafter
        cases hafter
        have hpolls := h.found hbefore
        cases hlooksAt : request.looksAt name with
        | false => simp [hlooksAt, hpolls]
        | true =>
          simp only [if_true, hpolls, hlooksAt, Bool.and_self, List.countP_singleton]
          omega
      | none =>
        obtain ⟨creation, rfl, -, hmade⟩ := hchange.creation_of_get? hsound hbefore hget
        rw [MemoryStore.pendingPolls_of_ofRequest hmade, h.sameConfig, h.missing hbefore]
        simp [Request.looksAt]
  · intro name hnone
    rw [hlooks]
    generalize (race.take turn).store = after at hserves hnone
    cases hserves with
    | nothing | refused => simpa using h.missing hnone
    | @granted asker request after hchange =>
      have hbefore : race.store.tables.get? name = none := by
        cases hbefore : race.store.tables.get? name with
        | none => rfl
        | some old =>
          obtain ⟨storage, -, -, hafter⟩ := hchange.get?_of_some hsound hbefore
          rw [hnone] at hafter
          cases hafter
      simp [h.missing hbefore, hchange.looksAt_of_none hbefore]

/-- A table is active once it was looked at as often as new tables must be. -/
theorem IsCounted.active_iff (h : race.IsCounted config) {name : String} {table : MemoryTable}
    (hget : race.store.tables.get? name = some table) :
    table.status = .active ↔ config.activationPolls ≤ race.looks name := by
  have hpolls := h.found hget
  unfold MemoryTable.status
  split <;> simp <;> omega

/-- Whether a provisioning is one for a schema. -/
def Runs (race : Race) (runner : Nat) (schema : Schema) : Prop :=
  ∃ provisioner, race.provisioners[runner]? = some provisioner ∧ provisioner.schema = schema

theorem Runs.take (h : race.Runs runner schema) (turn : Turn) :
    (race.take turn).Runs runner schema := by
  obtain ⟨provisioner, hrunner, rfl⟩ := h
  exact exists_provisioner_take hrunner turn

theorem runs_start (race : Race) (schema : Schema) :
    (race.take (.start schema)).Runs race.provisioners.length schema := by
  refine ⟨{ schema }, ?_, rfl⟩
  simp [Race.take]

end Race

/-! ## Connectors on one store -/

/-- A connector with the models that are defined on it, and the provisionings in its background that
nothing has waited for yet, by the names of their models. -/
structure Client where
  registry : Registry := []
  pending : OrderedMap String Nat := []

/-- Connectors on one store. The calls are those that make sure of the table of a schema, each with
the provisioning that it waits for. -/
structure Fleet where
  race : Race
  clients : List Client := []
  calls : List (Schema × Nat) := []

/-- What happens next to connectors on one store. -/
inductive Move where
  /-- A connector is made. -/
  | connect
  /-- A model is defined on a connector, and may be provisioned in the background. -/
  | define (client : Nat) (definition : ModelDefinition) (inBackground : Bool)
  /-- A connector is asked to make sure of the table of a model that is defined on it. -/
  | ensure (client : Nat) (model : String)
  /-- A provisioning begins or goes on, or something else asks the store. -/
  | turn (turn : Race.Turn)

namespace Fleet

/-- The connectors on a store that has no tables yet. -/
def start (config : MemoryConfig) : Fleet where
  race := { store := .empty config }

def define (fleet : Fleet) (client : Nat) (state : Client) (definition : ModelDefinition)
    (inBackground : Bool) : Fleet :=
  match state.registry.define definition with
  | .error _ => fleet
  | .ok (schema, registry) =>
    if inBackground then
      { fleet with
        race := fleet.race.take (.start schema)
        clients := fleet.clients.set client
          { registry, pending := state.pending.insert schema.name fleet.race.provisioners.length } }
    else { fleet with clients := fleet.clients.set client { state with registry } }

/-- A call waits for the provisioning in the background if there is one, and for a new one
otherwise. -/
def ensure (fleet : Fleet) (client : Nat) (state : Client) (schema : Schema) : Fleet :=
  match state.pending.get? schema.name with
  | some runner =>
    { fleet with
      clients := fleet.clients.set client { state with pending := state.pending.erase schema.name }
      calls := fleet.calls ++ [(schema, runner)] }
  | none =>
    { fleet with
      race := fleet.race.take (.start schema)
      calls := fleet.calls ++ [(schema, fleet.race.provisioners.length)] }

def make (fleet : Fleet) : Move → Fleet
  | .connect => { fleet with clients := fleet.clients ++ [{}] }
  | .define client definition inBackground =>
    match fleet.clients[client]? with
    | none => fleet
    | some state => fleet.define client state definition inBackground
  | .ensure client model =>
    match fleet.clients[client]? with
    | none => fleet
    | some state =>
      match state.registry.get? model with
      | none => fleet
      | some schema => fleet.ensure client state schema
  | .turn turn => { fleet with race := fleet.race.take turn }

/-- The connectors after some moves. -/
def play (fleet : Fleet) (moves : List Move) : Fleet := moves.foldl make fleet

/-- Whether a provisioning for a schema has returned an outcome, or a call that makes sure of its
table has. -/
def Assures (fleet : Fleet) (schema : Schema) (outcome : ProvisionOutcome) : Prop :=
  (∃ runner, fleet.race.Returns runner schema outcome) ∨
    ∃ runner provisioner, (schema, runner) ∈ fleet.calls ∧
      fleet.race.provisioners[runner]? = some provisioner ∧
      provisioner.result? = some (.ok outcome)

end Fleet

/-! ## What connectors know -/

/-- The invariant of a connector: a provisioning in the background is one for the schema of the
model that it is kept for. -/
structure Client.IsSound (race : Race) (client : Client) : Prop where
  name : ∀ {model schema}, client.registry.get? model = some schema → schema.name = model
  pending : ∀ {model runner}, client.pending.get? model = some runner →
    ∃ schema, client.registry.get? model = some schema ∧ race.Runs runner schema

namespace Client.IsSound

variable {race : Race} {client : Client}

theorem take (h : client.IsSound race) (turn : Race.Turn) : client.IsSound (race.take turn) where
  name := h.name
  pending hget := by
    obtain ⟨schema, hschema, hruns⟩ := h.pending hget
    exact ⟨schema, hschema, hruns.take turn⟩

/-- Defining a model keeps the models that were defined before. -/
theorem define (h : client.IsSound race) {definition : ModelDefinition} {schema : Schema}
    {registry : Registry} (hdefine : client.registry.define definition = .ok (schema, registry)) :
    ({ client with registry } : Client).IsSound race := by
  obtain ⟨hfree, hregistry⟩ := Registry.get?_of_define hdefine
  constructor
  · intro model other hget
    rw [hregistry] at hget
    split at hget
    case isTrue hmodel =>
      cases hget
      exact hmodel.symm
    case isFalse => exact h.name hget
  · intro model runner hget
    obtain ⟨other, hother, hruns⟩ := h.pending hget
    refine ⟨other, ?_, hruns⟩
    rw [hregistry, if_neg, hother]
    rintro rfl
    rw [hfree] at hother
    cases hother

theorem insert (h : client.IsSound race) {schema : Schema} {runner : Nat}
    (hschema : client.registry.get? schema.name = some schema) (hruns : race.Runs runner schema) :
    ({ client with pending := client.pending.insert schema.name runner } : Client).IsSound race where
  name := h.name
  pending {model other} hget := by
    simp only [OrderedMap.get?_insert, Std.compare_eq_iff_eq] at hget
    split at hget
    case isTrue hmodel =>
      cases hget
      exact ⟨schema, hmodel ▸ hschema, hruns⟩
    case isFalse => exact h.pending hget

theorem erase (h : client.IsSound race) (model : String) :
    ({ client with pending := client.pending.erase model } : Client).IsSound race where
  name := h.name
  pending hget := by
    simp only [OrderedMap.get?_erase] at hget
    split at hget
    · cases hget
    · exact h.pending hget

end Client.IsSound

/-- The invariant of connectors on one store. -/
structure Fleet.IsSound (config : MemoryConfig) (fleet : Fleet) : Prop where
  race : fleet.race.IsSound
  counted : fleet.race.IsCounted config
  clients : ∀ client ∈ fleet.clients, client.IsSound fleet.race
  calls : ∀ schema runner, (schema, runner) ∈ fleet.calls → fleet.race.Runs runner schema

namespace Fleet

variable {config : MemoryConfig} {fleet : Fleet}

theorem isSound_start (config : MemoryConfig) : (start config).IsSound config := by
  refine ⟨⟨MemoryStore.isSound_empty config, .nil, by simp [start]⟩, ⟨rfl, ?_, ?_⟩, ?_, ?_⟩
  · intro name table hget
    cases hget
  · intro name _
    rfl
  · simp [start]
  · simp [start]

namespace IsSound

theorem take (h : fleet.IsSound config) (turn : Race.Turn) :
    ({ fleet with race := fleet.race.take turn } : Fleet).IsSound config where
  race := h.race.take turn
  counted := h.counted.take h.race.store turn
  clients client hmem := (h.clients client hmem).take turn
  calls schema runner hmem := (h.calls schema runner hmem).take turn

theorem set (h : fleet.IsSound config) (client : Nat) {state : Client}
    (hstate : state.IsSound fleet.race) :
    ({ fleet with clients := fleet.clients.set client state } : Fleet).IsSound config where
  race := h.race
  counted := h.counted
  clients other hmem := by
    obtain hmem | rfl := List.mem_or_eq_of_mem_set hmem
    · exact h.clients other hmem
    · exact hstate
  calls := h.calls

theorem call (h : fleet.IsSound config) {schema : Schema} {runner : Nat}
    (hruns : fleet.race.Runs runner schema) :
    ({ fleet with calls := fleet.calls ++ [(schema, runner)] } : Fleet).IsSound config where
  race := h.race
  counted := h.counted
  clients := h.clients
  calls other runner' hmem := by
    obtain hmem | hmem := List.mem_append.1 hmem
    · exact h.calls other runner' hmem
    · cases List.mem_singleton.1 hmem
      exact hruns

theorem define (h : fleet.IsSound config) (client : Nat) {state : Client}
    (hstate : state.IsSound fleet.race) (definition : ModelDefinition) (inBackground : Bool) :
    (fleet.define client state definition inBackground).IsSound config := by
  unfold Fleet.define
  split
  case h_1 => exact h
  case h_2 schema registry hdefine =>
    have hdefined := hstate.define hdefine
    split
    case isTrue =>
      have hschema : registry.get? schema.name = some schema := by
        rw [(Registry.get?_of_define hdefine).2, if_pos rfl]
      have hruns := fleet.race.runs_start schema
      exact (h.take (.start schema)).set client ((hdefined.take (.start schema)).insert hschema hruns)
    case isFalse => exact h.set client hdefined

theorem ensure (h : fleet.IsSound config) (client : Nat) {state : Client}
    (hstate : state.IsSound fleet.race) {model : String} {schema : Schema}
    (hschema : state.registry.get? model = some schema) :
    (fleet.ensure client state schema).IsSound config := by
  obtain rfl : schema.name = model := hstate.name hschema
  unfold Fleet.ensure
  split
  case h_1 runner hrunner =>
    obtain ⟨other, hother, hruns⟩ := hstate.pending hrunner
    obtain rfl : schema = other := Option.some.inj (hschema.symm.trans hother)
    exact (h.set client (hstate.erase schema.name)).call hruns
  case h_2 => exact (h.take (.start schema)).call (fleet.race.runs_start schema)

/-- The invariant is kept by every move. -/
theorem make (h : fleet.IsSound config) (move : Move) : (fleet.make move).IsSound config := by
  have hclient {client : Nat} {state : Client} (hget : fleet.clients[client]? = some state) :
      state.IsSound fleet.race := h.clients state (List.mem_of_getElem? hget)
  cases move with
  | connect =>
    refine ⟨h.race, h.counted, ?_, h.calls⟩
    intro client hmem
    obtain hmem | hmem := List.mem_append.1 hmem
    · exact h.clients client hmem
    · cases List.mem_singleton.1 hmem
      exact ⟨nofun, nofun⟩
  | define client definition inBackground =>
    simp only [Fleet.make]
    split
    case h_1 => exact h
    case h_2 state hget => exact h.define client (hclient hget) definition inBackground
  | ensure client model =>
    simp only [Fleet.make]
    split
    case h_1 => exact h
    case h_2 state hget =>
      split
      case h_1 => exact h
      case h_2 schema hschema => exact h.ensure client (hclient hget) hschema
  | turn turn => exact h.take turn

theorem play (h : fleet.IsSound config) (moves : List Move) :
    (fleet.play moves).IsSound config := by
  induction moves generalizing fleet with
  | nil => exact h
  | cons move moves ih => exact ih (h.make move)

/-- A call that makes sure of a table returns what a provisioning of this table returned. -/
theorem exists_returns (h : fleet.IsSound config) {schema : Schema} {outcome : ProvisionOutcome}
    (hassures : fleet.Assures schema outcome) :
    ∃ runner, fleet.race.Returns runner schema outcome := by
  obtain hreturns | ⟨runner, provisioner, hmem, hrunner, hresult⟩ := hassures
  · exact hreturns
  · obtain ⟨other, hother, hschema⟩ := h.calls schema runner hmem
    obtain rfl : provisioner = other := Option.some.inj (hrunner.symm.trans hother)
    exact ⟨runner, provisioner, hrunner, hschema, hresult⟩

end IsSound

/-- A move makes a turn of the race at most. -/
theorem race_make (fleet : Fleet) (move : Move) :
    (fleet.make move).race = fleet.race ∨
      ∃ turn, (fleet.make move).race = fleet.race.take turn := by
  cases move with
  | connect => exact .inl rfl
  | define client definition inBackground =>
    simp only [make]
    split
    case h_1 => exact .inl rfl
    case h_2 =>
      unfold define
      split
      case h_1 => exact .inl rfl
      case h_2 =>
        split
        case isTrue => exact .inr ⟨.start _, rfl⟩
        case isFalse => exact .inl rfl
  | ensure client model =>
    simp only [make]
    split
    case h_1 => exact .inl rfl
    case h_2 =>
      split
      case h_1 => exact .inl rfl
      case h_2 =>
        unfold ensure
        split
        case h_1 => exact .inl rfl
        case h_2 => exact .inr ⟨.start _, rfl⟩
  | turn turn => exact .inr ⟨turn, rfl⟩

theorem IsSound.advances_play (h : fleet.IsSound config) (moves : List Move) :
    fleet.race.store.Advances (fleet.play moves).race.store := by
  induction moves generalizing fleet with
  | nil => exact .refl _
  | cons move moves ih =>
    refine MemoryStore.Advances.trans ?_ (ih (h.make move))
    obtain hsame | ⟨turn, hturn⟩ := fleet.race_make move
    · rw [hsame]
      exact .refl _
    · rw [hturn]
      obtain ⟨entries, -, hserves⟩ := fleet.race.serves_take turn
      exact hserves.advances h.race.store

/-- A table that is active stays so. -/
theorem IsSound.active_play (h : fleet.IsSound config) {name : String} {table : MemoryTable}
    (hget : fleet.race.store.tables.get? name = some table) (hactive : table.status = .active)
    (moves : List Move) :
    ∃ later, (fleet.play moves).race.store.tables.get? name = some later ∧
      later.status = .active := by
  obtain ⟨later, hlater, hpolls⟩ := (h.advances_play moves).tables hget
  refine ⟨later, hlater, ?_⟩
  unfold MemoryTable.status at hactive ⊢
  split at hactive
  case isTrue => cases hactive
  case isFalse => exact if_neg (by omega)

/-- Where a provisioning, or a call that makes sure of a table, has returned for a model whose table
has to be waited for, the table is there. It is active if the outcome tells that it was new, or if
it was looked at as often as new tables must be, and in no other case. Then it stays active. -/
theorem assured_active_iff (config : MemoryConfig) (moves : List Move) {schema : Schema}
    {outcome : ProvisionOutcome} (hassures : ((start config).play moves).Assures schema outcome)
    (hwait : schema.settings.activation.waitUntilActive) :
    ∃ table, ((start config).play moves).race.store.tables.get? schema.tableName = some table ∧
      (table.status = .active ↔ outcome ≠ .existing ∨
        config.activationPolls ≤ ((start config).play moves).race.looks schema.tableName) ∧
      (table.status = .active → ∀ more, ∃ later,
        (((start config).play moves).play more).race.store.tables.get? schema.tableName =
          some later ∧ later.status = .active) := by
  have hsound := (isSound_start config).play moves
  obtain ⟨runner, provisioner, hrunner, rfl, hresult⟩ := hsound.exists_returns hassures
  have hstage := hsound.race.stages provisioner (List.mem_of_getElem? hrunner)
  obtain ⟨_, houtcome, table, hget, hnew⟩ := hstage.of_result? hresult
  cases houtcome
  have hlooks := hsound.counted.active_iff hget
  refine ⟨table, hget, ⟨fun hactive => .inr (hlooks.1 hactive), ?_⟩, hsound.active_play hget⟩
  rintro (hexisting | hpolls)
  · simp [MemoryTable.status, hnew hexisting hwait]
  · exact hlooks.2 hpolls

/-- The definition of a model whose records are in the table of orders. -/
def inOrders (name : String) : ModelDefinition where
  name := name
  properties := [{ name := "id", type := .string, role := some .hash }]
  settings := { table := some "orders" }

def ordersSchema (name : String) : Schema where
  name := name
  tableName := "orders"
  hashKey := "id"
  rangeKey := none
  compositeKey := none
  separator := defaultSeparator
  generatesHash := false
  types := [("id", .string)]
  localIndexes := []
  globalIndexes := []
  settings := { table := some "orders" }

/-- A call makes sure of the table of orders, which is being provisioned in the background. -/
def orderMoves : List Move :=
  [.connect, .define 0 (inOrders "Order") true, .ensure 0 "Order"] ++
    List.replicate 5 (.turn (.go 0))

/-- Another model with the same table is provisioned after the table was created and looked at. -/
def invoiceMoves : List Move :=
  [.connect, .define 0 (inOrders "Order") true] ++ List.replicate 3 (.turn (.go 0)) ++
    [.define 0 (inOrders "Invoice") false, .ensure 0 "Invoice", .turn (.go 1)]

/-- The call for orders returns, and their table is active. -/
theorem active_orders :
    ((start {}).play orderMoves).Assures (ordersSchema "Order") .created ∧
      (ordersSchema "Order").settings.activation.waitUntilActive ∧
      ∃ table, ((start {}).play orderMoves).race.store.tables.get? "orders" = some table ∧
        table.status = .active := by
  have hassures : ((start {}).play orderMoves).Assures (ordersSchema "Order") .created :=
    .inr ⟨0, _, .head _, rfl, rfl⟩
  obtain ⟨table, hget, hactive, -⟩ := assured_active_iff {} orderMoves hassures rfl
  exact ⟨hassures, rfl, table, hget, hactive.2 (.inl (by decide))⟩

/-- The call for invoices returns while their table is being created. -/
theorem not_active_invoices :
    ((start { activationPolls := 2 }).play invoiceMoves).Assures (ordersSchema "Invoice")
      .existing ∧
      (ordersSchema "Invoice").settings.activation.waitUntilActive ∧
      ∃ table, ((start { activationPolls := 2 }).play invoiceMoves).race.store.tables.get?
        "orders" = some table ∧ table.status = .creating :=
  ⟨.inr ⟨1, _, .head _, rfl, rfl⟩, rfl, _, rfl, rfl⟩

end Fleet

end KeyedStore
