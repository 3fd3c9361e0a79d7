import KeyedStore.Connector.Process
import KeyedStore.Model.Schema

/-!
# Provisioning

Provisioning makes sure that the table of a model exists: it reads the names of all tables,
creates the table if it is not among them, and waits until the table is active if the model says
so. Several processes may provision the same table; one of them creates it, and the others learn
that it is in use.
-/
namespace KeyedStore

/-- What provisioning found or did. -/
inductive ProvisionOutcome where
  /-- The table was listed. -/
  | existing
  /-- The table was created. -/
  | created
  /-- The table was not listed, but something else created it first. -/
  | createdElsewhere
  deriving DecidableEq

/-- The reading of all table names, page by page. -/
inductive NameListing where
  /-- Has read some names, and asks for those after one. -/
  | reading (startAfter : Option String) (names : List String)
  | finished (result : Except ConnectorError (List String))

namespace NameListing

def start : NameListing := reading none []

/-- Adds a page of names to those read before. -/
def receive (names : List String) : Except ConnectorError TableNames → NameListing
  | .error error => finished (.error error)
  | .ok page =>
    let names := names ++ page.names
    match page.last with
    | some last => reading (some last) names
    | none => finished (.ok names)

def next : NameListing → Action NameListing (List String)
  | reading startAfter names => .ask (.listTables { startAfter }) (receive names)
  | finished result => .finish result

end NameListing

/-- The wait for a table to become active. -/
inductive Activation where
  /-- Looks at the table. -/
  | looking
  /-- Waits before the next look. -/
  | pausing
  | finished (result : Except ConnectorError Unit)

namespace Activation

/-- Ends if the table is active. -/
def receive : Except ConnectorError TableAnswer → Activation
  | .error error => finished (.error error)
  | .ok answer =>
    if answer.table.bind (·.status) = some .active then finished (.ok ()) else pausing

def next (table : String) (interval : Nat) : Activation → Action Activation Unit
  | looking => .ask (.describeTable { table }) receive
  | pausing => .sleep interval looking
  | finished result => .finish result

end Activation

/-- The provisioning of a table. -/
inductive Provisioning where
  | listing (names : NameListing)
  /-- The table exists, but may not be active. -/
  | activating (outcome : ProvisionOutcome) (activation : Activation)
  | finished (result : Except ConnectorError ProvisionOutcome)

namespace Provisioning

def start : Provisioning := listing .start

/-- Goes on once the table exists. -/
def await (schema : Schema) (outcome : ProvisionOutcome) : Provisioning :=
  if schema.settings.activation.waitUntilActive then activating outcome .looking
  else finished (.ok outcome)

/-- Goes on after the creation. A table in use has been created by something else. -/
def receive (schema : Schema) : Except ConnectorError TableAnswer → Provisioning
  | .ok _ => await schema .created
  | .error error =>
    match error with
    | .store failure =>
      if failure.code = .resourceInUse then await schema .createdElsewhere
      else finished (.error error)
    | _ => finished (.error error)

/-- Creates the table if it is not among those listed. -/
def create (schema : Schema) : Except ConnectorError (List String) →
    Action Provisioning ProvisionOutcome
  | .error error => .finish (.error error)
  | .ok names =>
    if names.contains schema.tableName then .finish (.ok .existing)
    else .ask (.createTable schema.createTable) (receive schema)

def next (schema : Schema) : Provisioning → Action Provisioning ProvisionOutcome
  | listing names => names.next.andThen listing (create schema)
  | activating outcome activation =>
    (activation.next schema.tableName schema.settings.activation.interval).andThen
      (activating outcome) fun result => .finish (result.map fun _ => outcome)
  | finished result => .finish result

end Provisioning

end KeyedStore
