import KeyedStore.Table.Description
import KeyedStore.Wire.Decoder

/-!
# Wire form of table types

Enumerations are written as upper-case words and structures as objects. Absent options and empty
lists that may be absent are left out.
-/
namespace KeyedStore

open Decoder Fields
open Json (optionalEntry listEntry)

def KeyPart.toWire : KeyPart → Json
  | hash => .str "HASH"
  | range => .str "RANGE"

def KeyPart.ofWire : Decoder KeyPart := literal [("HASH", hash), ("RANGE", range)]

def ScalarType.toWire (type : ScalarType) : Json := .str type.tag

def ScalarType.ofWire : Decoder ScalarType :=
  literal [("S", string), ("N", number), ("B", binary)]

def TableStatus.toWire (status : TableStatus) : Json := .str status.name

def TableStatus.ofWire : Decoder TableStatus :=
  literal [("CREATING", creating), ("ACTIVE", active), ("DELETING", deleting),
    ("UPDATING", updating)]

def BillingMode.toWire : BillingMode → Json
  | provisioned => .str "PROVISIONED"
  | payPerRequest => .str "PAY_PER_REQUEST"

def BillingMode.ofWire : Decoder BillingMode :=
  literal [("PROVISIONED", provisioned), ("PAY_PER_REQUEST", payPerRequest)]

def ProjectionType.toWire : ProjectionType → Json
  | all => .str "ALL"
  | keysOnly => .str "KEYS_ONLY"
  | listed => .str "INCLUDE"

def ProjectionType.ofWire : Decoder ProjectionType :=
  literal [("ALL", all), ("KEYS_ONLY", keysOnly), ("INCLUDE", listed)]

def ReturnValues.toWire : ReturnValues → Json
  | none => .str "NONE"
  | allOld => .str "ALL_OLD"
  | allNew => .str "ALL_NEW"

def ReturnValues.ofWire : Decoder ReturnValues :=
  literal [("NONE", none), ("ALL_OLD", allOld), ("ALL_NEW", allNew)]

def CapacityReport.toWire : CapacityReport → Json
  | indexes => .str "INDEXES"
  | total => .str "TOTAL"
  | none => .str "NONE"

def CapacityReport.ofWire : Decoder CapacityReport :=
  literal [("INDEXES", indexes), ("TOTAL", total), ("NONE", none)]

def KeyElement.toWire (element : KeyElement) : Json :=
  .obj [("AttributeName", .str element.name), ("KeyType", element.part.toWire)]

def KeyElement.ofWire : Decoder KeyElement :=
  (KeyElement.mk <$> required "AttributeName" string <*> required "KeyType" KeyPart.ofWire).decode

def AttributeDefinition.toWire (definition : AttributeDefinition) : Json :=
  .obj [("AttributeName", .str definition.name), ("AttributeType", definition.type.toWire)]

def AttributeDefinition.ofWire : Decoder AttributeDefinition :=
  (AttributeDefinition.mk <$> required "AttributeName" string
    <*> required "AttributeType" ScalarType.ofWire).decode

def Throughput.toWire (throughput : Throughput) : Json :=
  .obj [("ReadCapacityUnits", .ofInt throughput.read),
    ("WriteCapacityUnits", .ofInt throughput.write)]

def Throughput.ofWire : Decoder Throughput :=
  (Throughput.mk <$> required "ReadCapacityUnits" int64
    <*> required "WriteCapacityUnits" int64).decode

def Projection.toWire (projection : Projection) : Json :=
  .ofEntries [
    optionalEntry "ProjectionType" (projection.type.map ProjectionType.toWire),
    listEntry "NonKeyAttributes" (projection.attributes.map .str)]

def Projection.ofWire : Decoder Projection :=
  (Projection.mk <$> optional "ProjectionType" ProjectionType.ofWire
    <*> withDefault "NonKeyAttributes" (list string) []).decode

def GlobalIndex.toWire (index : GlobalIndex) : Json :=
  .ofEntries [
    some ("IndexName", .str index.name),
    some ("KeySchema", .arr (index.keyElements.map KeyElement.toWire)),
    some ("Projection", index.projection.toWire),
    optionalEntry "ProvisionedThroughput" (index.throughput.map Throughput.toWire)]

def GlobalIndex.ofWire : Decoder GlobalIndex :=
  (GlobalIndex.mk <$> required "IndexName" string
    <*> required "KeySchema" (list KeyElement.ofWire)
    <*> required "Projection" Projection.ofWire
    <*> optional "ProvisionedThroughput" Throughput.ofWire).decode

def LocalIndex.toWire (index : LocalIndex) : Json :=
  .obj [("IndexName", .str index.name),
    ("KeySchema", .arr (index.keyElements.map KeyElement.toWire)),
    ("Projection", index.projection.toWire)]

def LocalIndex.ofWire : Decoder LocalIndex :=
  (LocalIndex.mk <$> required "IndexName" string
    <*> required "KeySchema" (list KeyElement.ofWire)
    <*> required "Projection" Projection.ofWire).decode

def TableDescription.toWire (table : TableDescription) : Json :=
  .ofEntries [
    optionalEntry "TableName" (table.name.map .str),
    optionalEntry "TableStatus" (table.status.map TableStatus.toWire),
    listEntry "KeySchema" (table.keyElements.map KeyElement.toWire),
    listEntry "AttributeDefinitions" (table.definitions.map AttributeDefinition.toWire),
    optionalEntry "ItemCount" (table.itemCount.map .ofInt),
    optionalEntry "CreationDateTime" (table.createdAt.map .ofBinary64),
    optionalEntry "ProvisionedThroughput" (table.throughput.map Throughput.toWire),
    listEntry "GlobalSecondaryIndexes" (table.globalIndexes.map GlobalIndex.toWire),
    listEntry "LocalSecondaryIndexes" (table.localIndexes.map LocalIndex.toWire)]

def TableDescription.ofWire : Decoder TableDescription :=
  (TableDescription.mk <$> optional "TableName" string
    <*> optional "TableStatus" TableStatus.ofWire
    <*> withDefault "KeySchema" (list KeyElement.ofWire) []
    <*> withDefault "AttributeDefinitions" (list AttributeDefinition.ofWire) []
    <*> optional "ItemCount" int64
    <*> optional "CreationDateTime" binary64
    <*> optional "ProvisionedThroughput" Throughput.ofWire
    <*> withDefault "GlobalSecondaryIndexes" (list GlobalIndex.ofWire) []
    <*> withDefault "LocalSecondaryIndexes" (list LocalIndex.ofWire) []).decode

end KeyedStore
