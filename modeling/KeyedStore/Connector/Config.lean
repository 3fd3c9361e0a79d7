import KeyedStore.Memory.Config
import KeyedStore.Wire.Decoder

/-!
# Configuration of a connector

How a connector reaches its store, how long it waits for an answer, and whether it creates the
tables of the models that are defined.
-/
namespace KeyedStore

open Decoder Fields

/-- The configuration of a connector. -/
structure ConnectorConfig where
  region : String := "ap-southeast-1"
  /-- Where the store is, if not at the usual place of its region. -/
  endpoint : Option String := none
  /-- The number of times a client may repeat a request; a connector never does. -/
  maxRetries : Nat := 0
  /-- Milliseconds to wait for an answer. -/
  requestTimeout : Nat := 30000
  /-- Whether the table of a model is created in the background when the model is defined. -/
  autoProvision : Bool := true
  deriving DecidableEq

namespace ConnectorConfig

def ofJson : Decoder ConnectorConfig :=
  (ConnectorConfig.mk <$> required "region" string
    <*> optional "endpoint" string
    <*> required "maxRetries" (natBelow (Nat.pow 2 32))
    <*> required "requestTimeout" (natBelow (Nat.pow 2 64))
    <*> required "autoProvision" bool).decode

def toJson (config : ConnectorConfig) : Json :=
  .obj [("region", .str config.region),
    ("endpoint", .ofOption .str config.endpoint),
    ("maxRetries", .ofInt config.maxRetries),
    ("requestTimeout", .ofInt config.requestTimeout),
    ("autoProvision", .bool config.autoProvision)]

/-- The configuration that an environment asks for. A switch is on for a few spellings only, and off
for all others. -/
def ofEnvironment (environment : Environment) : ConnectorConfig :=
  let standard : ConnectorConfig := {}
  { region := (environment.lookup "DYNAMODB_REGION").getD standard.region
    endpoint := (environment.lookup "DYNAMODB_ENDPOINT").filter fun text => !text.isEmpty
    maxRetries := (environment.nat? "DYNAMODB_MAX_RETRIES" (Nat.pow 2 32)).getD standard.maxRetries
    requestTimeout :=
      (environment.nat? "DYNORM_REQUEST_TIMEOUT_MS" (Nat.pow 2 64)).getD standard.requestTimeout
    autoProvision :=
      ((environment.lookup "DYNORM_AUTO_PROVISION").map
        ["1", "true", "yes", "TRUE", "YES"].contains).getD standard.autoProvision }

def withRequestTimeout (config : ConnectorConfig) (milliseconds : Nat) : ConnectorConfig :=
  { config with requestTimeout := milliseconds }

def withAutoProvision (config : ConnectorConfig) (enabled : Bool) : ConnectorConfig :=
  { config with autoProvision := enabled }

end ConnectorConfig

end KeyedStore
