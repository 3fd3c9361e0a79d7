/-!
# Store errors

The errors a store answers with: a code and a text, with the underlying cause where there is one.
-/
namespace KeyedStore

/-- The kinds of failure a store reports. -/
inductive StoreErrorCode where
  | resourceInUse
  | resourceNotFound
  | conditionalCheckFailed
  | throughputExceeded
  | requestLimitExceeded
  | validation
  | serialization
  | internal
  | unavailable
  deriving DecidableEq

namespace StoreErrorCode

/-- The code of errors made without one. -/
def default : StoreErrorCode := validation

def all : List StoreErrorCode :=
  [resourceInUse, resourceNotFound, conditionalCheckFailed, throughputExceeded,
   requestLimitExceeded, validation, serialization, internal, unavailable]

/-- The word that stands for a code. -/
def name : StoreErrorCode → String
  | resourceInUse => "ResourceInUseException"
  | resourceNotFound => "ResourceNotFoundException"
  | conditionalCheckFailed => "ConditionalCheckFailedException"
  | throughputExceeded => "ProvisionedThroughputExceededException"
  | requestLimitExceeded => "RequestLimitExceeded"
  | validation => "ValidationException"
  | serialization => "SerializationException"
  | internal => "InternalServerError"
  | unavailable => "ServiceUnavailable"

/-- The code with a name. -/
def ofName? (text : String) : Option StoreErrorCode := all.find? (·.name == text)

/-- Whether a client would normally try the request again. -/
def isRetryable : StoreErrorCode → Bool
  | throughputExceeded | requestLimitExceeded | internal | unavailable => true
  | _ => false

end StoreErrorCode

/-- An error answered by a store. -/
structure StoreError where
  code : StoreErrorCode
  detail : String
  cause : Option String := none
  deriving DecidableEq

namespace StoreError

/-- An error that says no more than its code. -/
def ofCode (code : StoreErrorCode) : StoreError := { code, detail := code.name }

/-- The request is malformed. -/
def validation (detail : String) : StoreError := { code := .validation, detail }

/-- The table or index exists already. -/
def resourceInUse (detail : String) : StoreError := { code := .resourceInUse, detail }

/-- The table or index does not exist. -/
def resourceNotFound (detail : String) : StoreError := { code := .resourceNotFound, detail }

/-- The store failed on its own. -/
def internal (detail : String) : StoreError := { code := .internal, detail }

/-- The text of an error. -/
def message (error : StoreError) : String :=
  "StoreError(" ++ error.code.name ++ "): " ++ error.detail

end StoreError

end KeyedStore
