import KeyedStore.Filter.Condition
import KeyedStore.Key.Coercion
import KeyedStore.Store.Error

/-!
# Connector errors

The ways in which an operation on records can fail: its input is refused before the store is
asked, or the store answers with an error, or it does not answer in time.
-/
namespace KeyedStore

/-- Why an operation failed. -/
inductive ConnectorError where
  | definition (error : DefinitionError)
  | validation (error : ValidationError)
  | input (error : InputError)
  | store (error : StoreError)
  /-- A request that was not answered within a number of milliseconds. -/
  | timeout (operation : String) (limit : Nat)
  deriving DecidableEq

/-- The text of an error. -/
def ConnectorError.message : ConnectorError → String
  | definition error => error.message
  | validation error => error.message
  | input error => error.message
  | store error => error.message
  | timeout operation limit => s!"{operation} timed out after {limit} ms"

end KeyedStore
