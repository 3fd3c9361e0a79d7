import KeyedStore.Connector.Error
import KeyedStore.Store.Answer

/-!
# Processes

A process asks a store one thing after another and goes on with the answers. It is given by its
states and by what it does in each of them; so processes can be run one after another, or in
turns.
-/
namespace KeyedStore

/-- What a process with states in `σ` and a result in `α` does next. -/
inductive Action (σ α : Type) where
  /-- Ends. -/
  | finish (result : Except ConnectorError α)
  /-- Asks the store, and goes on with the answer. -/
  | ask (request : Request) (resume : Except ConnectorError request.Answer → σ)
  /-- Goes on after a time. -/
  | sleep (milliseconds : Nat) (next : σ)

/-- The action of a process of which another one is the first part. -/
def Action.andThen {σ τ α β : Type} (action : Action σ α) (within : σ → τ)
    (after : Except ConnectorError α → Action τ β) : Action τ β :=
  match action with
  | finish result => after result
  | ask request resume => .ask request fun answer => within (resume answer)
  | sleep milliseconds next => .sleep milliseconds (within next)

end KeyedStore
