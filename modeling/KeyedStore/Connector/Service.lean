import KeyedStore.Connector.Provisioning

/-!
# Services

A service is what a connector needs from the world: a store that answers requests, time that
passes, and a background in which tables are provisioned. Operations run one after another and
change the state of the service. A process that is not done after a number of steps is
interrupted.
-/
namespace KeyedStore

/-- Why an operation has no result. -/
inductive Interruption where
  | failed (error : ConnectorError)
  /-- More steps were needed than are taken. -/
  | unfinished
  deriving DecidableEq

/-- An operation on a state of type `σ` with a result of type `α`. What it did to the state is kept
when it is interrupted. -/
abbrev Operation (σ α : Type) := ExceptT Interruption (StateM σ) α

/-- The operation with a given result. -/
def Operation.ofExcept {σ α : Type} : Except ConnectorError α → Operation σ α
  | .ok a => pure a
  | .error error => throw (.failed error)

/-- What a connector needs, over states of type `σ`. -/
structure Service (σ : Type) where
  /-- Asks the store. -/
  call : (request : Request) → StateM σ (Except ConnectorError request.Answer)
  /-- Lets milliseconds pass. -/
  sleep : Nat → StateM σ Unit := fun _ => pure ()
  /-- Starts to provision the table of a model, where there is a background. -/
  spawn : Schema → StateM σ Unit := fun _ => pure ()
  /-- Waits for the provisioning of a model that was started in the background and that nothing has
  waited for yet. -/
  join : String → StateM σ (Option (Except Interruption ProvisionOutcome)) := fun _ => pure none
  /-- The most steps of a process that starts in a state. -/
  steps : σ → Nat

namespace Service

variable {σ τ α : Type}

/-- Runs a process from a state for a number of steps. -/
def runFor (service : Service σ) (next : τ → Action τ α) : Nat → τ → Operation σ α
  | 0, _ => throw .unfinished
  | steps + 1, state =>
    match next state with
    | .finish result => .ofExcept result
    | .ask request resume => do
      let answer ← ExceptT.lift (service.call request)
      service.runFor next steps (resume answer)
    | .sleep milliseconds state => do
      ExceptT.lift (service.sleep milliseconds)
      service.runFor next steps state

/-- Runs a process from its first state to its end. -/
def run (service : Service σ) (next : τ → Action τ α) (start : τ) : Operation σ α := do
  service.runFor next (service.steps (← get)) start

/-- Asks the store and fails as it does. -/
def ask (service : Service σ) (request : Request) : Operation σ request.Answer := do
  .ofExcept (← ExceptT.lift (service.call request))

end Service

end KeyedStore
