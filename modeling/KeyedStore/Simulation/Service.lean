import KeyedStore.Simulation.Background

/-!
# Simulated stores as services

Time passes only while an operation waits: then the tasks in the background go on, and time goes on
to the next of them that is due, until the operation itself is due. An operation that is due
together with tasks goes first. A wait of no time takes no turn from the others, but only so many
of them in a row: then the others have a round.
-/
namespace KeyedStore

namespace Simulation

/-- Lets milliseconds pass. -/
def pass (milliseconds : Nat) : StateM Simulation Unit :=
  modify fun sim =>
    let dueAt := sim.clock + min milliseconds horizon
    let sim := if sim.patience = 0 then sim.runRound.rested else sim
    if sim.clock < dueAt then { sim.advance dueAt sim.rounds with patience := turn - 1 }
    else { sim with patience := sim.patience - 1 }

/-- Makes a request and waits for its answer. -/
def call (request : Request) : StateM Simulation (Except ConnectorError request.Answer) := do
  modify fun sim => sim.note request
  let sim ← get
  if sim.isDelayed request then pass (sim.wait request)
  settle request

/-- Starts to provision the table of a model. -/
def spawn (schema : Schema) : StateM Simulation Unit :=
  modify fun sim =>
    { sim with
      ready := sim.ready ++ [⟨schema, .continuing .start⟩]
      unjoined := sim.unjoined ++ [schema.name] }

/-- Waits for the provisioning of a model in the background, if nothing has waited for it yet. Every
task takes at least one step in each turn that it does not end by sleeping. -/
def join (model : String) : StateM Simulation (Option (Except Interruption ProvisionOutcome)) :=
  fun sim =>
    if sim.unjoined.contains model then
      let sim := { sim with unjoined := sim.unjoined.erase model }
      let (result, sim) := awaitResult model ((2 * sim.steps + 1) * (sim.taskCount + 2)) sim
      (some result, sim)
    else (none, sim)

/-- A simulated store as a service. -/
def service : Service Simulation where
  call := call
  sleep := pass
  spawn := spawn
  join := join
  steps := Simulation.steps

end Simulation

end KeyedStore
