import KeyedStore.Connector.Basic
import KeyedStore.Memory.Store

/-!
# Connectors over a store in memory

A store in memory answers at once, so no time passes and there is no background.
-/
namespace KeyedStore

/-- The answer of a store in memory to a request, and the store after it. An operation checks all for
which it may fail before it writes, and it writes once, in its last step: it puts in a table, looks
at one, or puts in or removes one item. So an error comes with the store as it was. -/
def MemoryStore.respond (request : Request) :
    StateM MemoryStore (Except StoreError request.Answer) :=
  fun store =>
    match store.answer request with
    | .ok (answer, after) => (.ok answer, after)
    | .error error => (.error error, store)

/-- More steps than a process can take on a store that nothing else changes: each page of a reading
but the last brings at least one entry, and each look at a new table brings it closer to being
active. -/
def MemoryStore.steps (store : MemoryStore) : Nat :=
  let tables := store.tables.values
  let items := (tables.map fun table => table.storage.itemCount).foldr (· + ·) 0
  let polls := store.config.activationPolls + (tables.map (·.pendingPolls)).foldr (· + ·) 0
  tables.length + items + 2 * polls + 8

/-- A store in memory as a service. -/
def MemoryStore.service : Service MemoryStore where
  call request := Except.mapError ConnectorError.store <$> MemoryStore.respond request
  steps := MemoryStore.steps

/-- A connector over a store in memory. -/
def Connector.local : Connector MemoryStore where
  service := MemoryStore.service

end KeyedStore
