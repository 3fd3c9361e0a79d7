import KeyedStore.Connector.Local
import KeyedStore.Simulation.Script

/-!
# Simulated stores

A simulated store answers with an answer from a script or with that of a store in memory, and may
do so after a delay. Time is counted in milliseconds. Tasks in the background are ready to go on, or
sleep until they are due.
-/
namespace KeyedStore

/-- What a task in the background is doing. -/
inductive Activity where
  /-- Is about to do what its process does in a state. -/
  | continuing (state : Provisioning)
  /-- Has begun what its process does in a state and waits for its end, which is due at a time. -/
  | waiting (state : Provisioning) (dueAt : Nat)

/-- A task in the background that provisions the table of a model. -/
structure BackgroundTask where
  schema : Schema
  activity : Activity

/-- When a task can go on. -/
def BackgroundTask.dueAt (task : BackgroundTask) : Nat :=
  match task.activity with
  | .continuing _ => 0
  | .waiting _ dueAt => dueAt

/-- How many waits, those of no time among them, a process takes in one turn. -/
def Simulation.turn : Nat := 128

/-- A store in simulated time. -/
structure Simulation where
  /-- The store that answers where the script does not; without one, answers say nothing. -/
  memory : Option MemoryStore := some {}
  /-- The scripted answers for each operation. -/
  script : List (String × List Reply) := []
  /-- Milliseconds before the store acts, for each operation. -/
  delays : List (String × Nat) := []
  /-- Milliseconds after which a request is given up. -/
  timeout : Nat := 5000
  clock : Nat := 0
  /-- The requests made, in order. -/
  log : List Request := []
  /-- The tasks that go on when the operation waits, in the order of their turns. -/
  ready : List BackgroundTask := []
  /-- The tasks that wait for a time, in the order in which they began to wait. -/
  sleeping : List BackgroundTask := []
  /-- The results of tasks by model name. -/
  results : List (String × Except Interruption ProvisionOutcome) := []
  /-- The models whose provisioning nothing has waited for yet. -/
  unjoined : List String := []
  /-- How many waits of no time the operation may still take in a row. -/
  patience : Nat := Simulation.turn

namespace Simulation

/-- The longest wait in milliseconds: thirty years of 365 days. A longer one ends then. -/
def horizon : Nat := 30 * 365 * 24 * 60 * 60 * 1000

/-- The simulation before an operation that has just begun. -/
def rested (sim : Simulation) : Simulation := { sim with patience := turn }

/-- The number of tasks that are not done. -/
def taskCount (sim : Simulation) : Nat := sim.ready.length + sim.sleeping.length

/-- More steps than a process takes that comes to an end: each brings it on in the script, in the
list of tables, in a reading or towards an active table. Tasks may add a table each. -/
def steps (sim : Simulation) : Nat :=
  (sim.memory.getD {}).steps + 2 * (sim.script.map (·.2.length)).foldr (· + ·) 0 + sim.taskCount

/-- Takes the next scripted answer for an operation. -/
def takeReply (sim : Simulation) (operation : String) : Option (Reply × Simulation) :=
  match sim.script.lookup operation with
  | some (reply :: rest) =>
    let script := sim.script.map fun entry =>
      if entry.1 == operation then (operation, rest) else entry
    some (reply, { sim with script })
  | _ => none

/-- The store acts on a request. -/
def respond (request : Request) : StateM Simulation (Except StoreError request.Answer) := fun sim =>
  match sim.takeReply request.operation with
  | some (reply, sim) => (reply.answer request, sim)
  | none =>
    match sim.memory with
    | some store =>
      let (answer, store) := MemoryStore.respond request store
      (answer, { sim with memory := some store })
    | none => (.ok request.emptyAnswer, sim)

/-- Whether a request has a delay, be it of no time. -/
def isDelayed (sim : Simulation) (request : Request) : Bool :=
  (sim.delays.lookup request.operation).isSome

def delay (sim : Simulation) (request : Request) : Nat :=
  min ((sim.delays.lookup request.operation).getD 0) horizon

/-- How long an answer is waited for at most. -/
def limit (sim : Simulation) : Nat := min sim.timeout horizon

/-- How long a request is waited for. -/
def wait (sim : Simulation) (request : Request) : Nat := min (sim.delay request) sim.limit

/-- What a request comes to when it has been waited for: an answer, if the store acts in time. -/
def settle (request : Request) : StateM Simulation (Except ConnectorError request.Answer) := do
  let sim ← get
  if sim.limit < sim.delay request then
    return .error (.timeout request.operation sim.timeout)
  else return (← respond request).mapError .store

/-- Notes a request. -/
def note (sim : Simulation) (request : Request) : Simulation :=
  { sim with log := sim.log ++ [request] }

end Simulation

end KeyedStore
