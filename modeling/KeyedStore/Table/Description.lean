import KeyedStore.Numeric.Binary64

/-!
# Tables and their indexes

What a table is made of: the attributes of its key, the scalar types of key attributes, its
secondary indexes, the capacity set aside for it and its state.
-/
namespace KeyedStore

/-- The part of a key that an attribute forms. -/
inductive KeyPart where
  | hash
  | range
  deriving DecidableEq

/-- The types a key attribute can have. -/
inductive ScalarType where
  | string
  | number
  | binary
  deriving DecidableEq

/-- The state of a table in its life. -/
inductive TableStatus where
  | creating
  | active
  | deleting
  | updating
  deriving DecidableEq

/-- How a table is paid for. -/
inductive BillingMode where
  | provisioned
  | payPerRequest
  deriving DecidableEq

/-- Which attributes an index copies from its table. -/
inductive ProjectionType where
  | all
  | keysOnly
  | listed
  deriving DecidableEq

/-- Which image of an item a write answers with. -/
inductive ReturnValues where
  | none
  | allOld
  | allNew
  deriving DecidableEq

/-- Whether the capacity that a request used is reported. -/
inductive CapacityReport where
  | indexes
  | total
  | none
  deriving DecidableEq

/-- An attribute of a key. -/
structure KeyElement where
  name : String
  part : KeyPart
  deriving DecidableEq

/-- The declared type of a key attribute. -/
structure AttributeDefinition where
  name : String
  type : ScalarType
  deriving DecidableEq

/-- Reads and writes per second. -/
structure Throughput where
  read : Int
  write : Int
  deriving DecidableEq

/-- The attributes that an index copies. -/
structure Projection where
  type : Option ProjectionType
  attributes : List String := []
  deriving DecidableEq

/-- An index with a key and a capacity of its own. -/
structure GlobalIndex where
  name : String
  keyElements : List KeyElement
  projection : Projection
  throughput : Option Throughput
  deriving DecidableEq

/-- An index with the hash key of its table and another range key. -/
structure LocalIndex where
  name : String
  keyElements : List KeyElement
  projection : Projection
  deriving DecidableEq

/-- What a store reports about a table. -/
structure TableDescription where
  name : Option String
  status : Option TableStatus
  keyElements : List KeyElement
  definitions : List AttributeDefinition
  itemCount : Option Int
  createdAt : Option Binary64
  throughput : Option Throughput
  globalIndexes : List GlobalIndex
  localIndexes : List LocalIndex
  deriving DecidableEq

/-- The letter that stands for a scalar type. -/
def ScalarType.tag : ScalarType → String
  | string => "S"
  | number => "N"
  | binary => "B"

/-- The word that stands for a table state. -/
def TableStatus.name : TableStatus → String
  | creating => "CREATING"
  | active => "ACTIVE"
  | deleting => "DELETING"
  | updating => "UPDATING"

end KeyedStore
