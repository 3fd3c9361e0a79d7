import KeyedStore.Simulation.Basic

/-!
# The background of a simulation

Tasks that are ready take turns. A task ends its turn when it has to wait for a time, when it is
done, or when it has taken as many waits as a turn allows; a wait of no time is over at once. Turns
are taken in rounds: those who gave up their turn in a round go on after it, the last of them first,
behind the tasks for which the round was too short.
-/
namespace KeyedStore

/-- How a task ends its turn. -/
inductive TurnEnd where
  /-- Waits for a time. -/
  | asleep (activity : Activity)
  /-- Lets others go on. -/
  | yielding (activity : Activity)
  | done (result : Except Interruption ProvisionOutcome)

namespace Simulation

/-- How many tasks take their turns in one round. -/
def roundSize : Nat := 61

/-- Brings what a process does in a state to its end. -/
def conclude (schema : Schema) (state : Provisioning) : StateM Simulation Provisioning := do
  match state.next schema with
  | .finish _ => return state
  | .ask request resume => return resume (← settle request)
  | .sleep _ next => return next

/-- Runs a process for some steps until its turn ends. -/
def runProcess (schema : Schema) : Nat → Nat → Activity → StateM Simulation TurnEnd
  | 0, _, _ => return .done (.error .unfinished)
  | steps + 1, patience, .continuing state => do
    match state.next schema with
    | .finish result => return .done (result.mapError .failed)
    | .ask request _ =>
      modify fun sim => sim.note request
      let sim ← get
      if sim.isDelayed request then
        runProcess schema steps patience (.waiting state (sim.clock + sim.wait request))
      else runProcess schema steps patience (.continuing (← conclude schema state))
    | .sleep milliseconds _ =>
      let dueAt := (← get).clock + min milliseconds horizon
      runProcess schema steps patience (.waiting state dueAt)
  | _ + 1, 0, .waiting state dueAt => return .yielding (.waiting state dueAt)
  | steps + 1, patience + 1, .waiting state dueAt => do
    if (← get).clock < dueAt then return .asleep (.waiting state dueAt)
    else runProcess schema steps patience (.continuing (← conclude schema state))

/-- Gives a task its turn. Those who gave up theirs in the same round are at hand, the last one
first. -/
def runTurn : Simulation × List BackgroundTask → BackgroundTask →
    Simulation × List BackgroundTask
  | (sim, yielding), task =>
    match runProcess task.schema (2 * sim.steps) turn task.activity sim with
    | (.asleep activity, sim) =>
      ({ sim with sleeping := sim.sleeping ++ [{ task with activity }] }, yielding)
    | (.yielding activity, sim) => (sim, { task with activity } :: yielding)
    | (.done result, sim) =>
      ({ sim with results := sim.results ++ [(task.schema.name, result)] }, yielding)

/-- Runs a round of turns. -/
def runRound (sim : Simulation) : Simulation :=
  let (batch, ready) := sim.ready.splitAt roundSize
  let (sim, yielding) := batch.foldl runTurn ({ sim with ready }, [])
  { sim with ready := sim.ready ++ yielding }

/-- The time at which the next task is due. -/
def nextDue (sim : Simulation) : Option Nat := (sim.sleeping.map (·.dueAt)).min?

/-- Goes on to a time at which tasks that sleep may be due. -/
def wake (sim : Simulation) (time : Nat) : Simulation :=
  let (due, sleeping) := sim.sleeping.partition (·.dueAt ≤ time)
  { sim with clock := max sim.clock time, ready := sim.ready ++ due, sleeping }

/-- More rounds than are run, and times gone on to, in one wait: each task is due once in a
millisecond, and may yield at each step before it ends. -/
def rounds (sim : Simulation) : Nat := 2 * (horizon + 2 * sim.steps) * (sim.taskCount + 1)

/-- Runs the tasks that are ready or due before a time, and goes on to that time. -/
def advance (time : Nat) : Nat → Simulation → Simulation
  | 0, sim => sim.wake time
  | rounds + 1, sim =>
    if !sim.ready.isEmpty then advance time rounds sim.runRound
    else
      match sim.nextDue.filter (· < time) with
      | some due => advance time rounds (sim.wake due)
      | none => sim.wake time

/-- Runs tasks until that of a model is done, for some rounds beside those in which it sleeps. -/
def awaitResult (model : String) :
    Nat → Simulation → Except Interruption ProvisionOutcome × Simulation
  | 0, sim => (.error .unfinished, sim)
  | rounds + 1, sim =>
    match sim.results.lookup model with
    | some result => (result, sim)
    | none =>
      if !sim.ready.isEmpty then awaitResult model rounds sim.runRound
      else
        match sim.sleeping.find? (·.schema.name = model) with
        | some task => awaitResult model rounds (advance task.dueAt sim.rounds sim)
        | none => (.error .unfinished, sim)

end Simulation

end KeyedStore
