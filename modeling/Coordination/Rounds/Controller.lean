import Coordination.Remote.Channel
import Coordination.Rounds.Latency
import Coordination.Rounds.Policy

/-!
Rounds of tasks over a fixed list of workers. Every task is given the next tick, and the tick decides
the worker; a round goes on in batches until it is through, stopped or halted.
-/

namespace Coordination

structure Task where
  name : String
  target : Target
  method : String
  args : List Json

/-- What a worker reports of one call; `stopRequested` if the run was asked to stop meanwhile. -/
structure CallReport where
  outcome : Outcome
  elapsedNs : Nat
  stopRequested : Bool

structure Worker (ω : Type) where
  id : String
  call : Task → ω → Option (CallReport × ω)

/-- A worker that is reached through a channel. -/
def Worker.ofChannel {ω : Type} (id : String) (channel : Channel ω) : Worker ω where
  id := id
  call task world :=
    (channel.invoke none task.target task.method task.args world).map fun (outcome, world) =>
      (⟨outcome, 0, false⟩, world)

/-- One task at a time, or as many at once as the limit and the workers allow; a limit of 0 leaves it
to the workers. -/
inductive Mode where
  | serial
  | parallel (maxConcurrent : Nat)
  deriving DecidableEq, Repr

structure TaskOutcome where
  round : Nat
  tick : Nat
  task : String
  worker : String
  report : CallReport

namespace TaskOutcome

def failed (o : TaskOutcome) : Bool :=
  match o.report.outcome with
  | .ok _ => false
  | .error _ => true

end TaskOutcome

structure TaskRecord where
  latencies : Latencies
  failures : Nat
  deriving Inhabited

namespace TaskRecord

def empty : TaskRecord := ⟨.empty, 0⟩

def add (r : TaskRecord) (o : TaskOutcome) : TaskRecord :=
  ⟨r.latencies.record o.report.elapsedNs, r.failures + if o.failed then 1 else 0⟩

end TaskRecord

/-- The counts of rounds, ticks and failures have 64 bits. Each goes up by one with a round or a call, so
that no controller lives to see one of them overflow; here they are plain numbers. -/
structure Controller (ω : Type) where
  tasks : List Task
  workers : List (Worker ω)
  policy : Policy
  mode : Mode
  haltOnFailure : Bool
  stopped : Bool
  round : Nat
  tick : Nat
  failed : Nat
  halted : Bool
  records : Table String TaskRecord

/-- What a run has come to. -/
structure RunSummary where
  policy : String
  roundsCompleted : Nat
  dispatched : Nat
  failed : Nat
  stoppedEarly : Bool
  tasks : List (String × TaskRecord)

namespace Controller

variable {ω : Type}

def create (workers : List (Worker ω)) (policy : Policy) : Controller ω :=
  ⟨[], workers, policy, .serial, false, false, 0, 0, 0, false, .empty⟩

def register (c : Controller ω) (task : Task) : Controller ω :=
  { c with tasks := c.tasks ++ [task] }

def stop (c : Controller ω) : Controller ω := { c with stopped := true }

def shouldHalt (c : Controller ω) : Bool := c.halted || c.stopped

def notReady? (c : Controller ω) : Option Fault :=
  if c.tasks.isEmpty then some (.invalidConfiguration "no tasks registered")
  else if c.workers.isEmpty then some (.invalidConfiguration "no workers registered")
  else none

/-! Batches. -/

def batchSize (c : Controller ω) : Nat :=
  match c.mode with
  | .serial => 1
  | .parallel 0 => c.workers.length
  | .parallel maxConcurrent => min maxConcurrent c.workers.length

/-- Cuts a list into pieces of `size`, the last one possibly shorter. -/
def batches {α : Type} (size : Nat) : List α → List (List α)
  | [] => []
  | item :: rest => (item :: rest.take (size - 1)) :: batches size (rest.drop (size - 1))
termination_by items => items.length
decreasing_by rw [List.length_drop, List.length_cons]; omega

/-- A task on its way to a worker. -/
structure Assignment (ω : Type) where
  tick : Nat
  task : Task
  worker : Worker ω

def assign? (c : Controller ω) (tick index : Nat) : Option (Assignment ω) := do
  let task ← c.tasks[index]?
  let worker ← c.workers[tick % c.workers.length]?
  return ⟨tick, task, worker⟩

def assignments (c : Controller ω) (batch : List Nat) : List (Assignment ω) :=
  batch.zipIdx.filterMap fun (index, offset) => c.assign? (c.tick + offset) index

def runAssignments (round : Nat) :
    List (Assignment ω) → ω → Option (List TaskOutcome × ω)
  | [], world => some ([], world)
  | a :: rest, world => do
      let (report, world) ← a.worker.call a.task world
      let (later, world) ← runAssignments round rest world
      return (⟨round, a.tick, a.task.name, a.worker.id, report⟩ :: later, world)

def record (c : Controller ω) (o : TaskOutcome) : Controller ω :=
  { c with
    records := c.records.modify o.task .empty (·.add o)
    failed := c.failed + if o.failed then 1 else 0
    halted := c.halted || (o.failed && c.haltOnFailure)
    stopped := c.stopped || o.report.stopRequested }

/-- Runs a batch and records all that comes of it. -/
def runBatch (c : Controller ω) (batch : List Nat) (world : ω) :
    Option (List TaskOutcome × Controller ω × ω) :=
  (runAssignments c.round (c.assignments batch) world).map fun (outcomes, world) =>
    (outcomes, outcomes.foldl record { c with tick := c.tick + batch.length }, world)

/-! Rounds. -/

def runBatches (c : Controller ω) (world : ω) :
    List (List Nat) → Option (List TaskOutcome × Controller ω × ω)
  | [] => some ([], c, world)
  | batch :: rest =>
      if c.shouldHalt then some ([], c, world)
      else do
        let (outcomes, c, world) ← c.runBatch batch world
        let (later, c, world) ← runBatches c world rest
        return (outcomes ++ later, c, world)

/-- Runs every task once, unless the round ends early. -/
def performRound (c : Controller ω) (world : ω) :
    Option (List TaskOutcome × Controller ω × ω) :=
  let (order, policy) := c.policy.order c.tasks.length
  runBatches { c with round := c.round + 1, policy } world (batches c.batchSize order)

def runRound (c : Controller ω) (world : ω) :
    Option (Except Fault (List TaskOutcome) × Controller ω × ω) :=
  match c.notReady? with
  | some fault => some (.error fault, c, world)
  | none =>
      (c.performRound world).map fun (outcomes, c, world) => (.ok outcomes, c, world)

/-- Performs up to `rounds` rounds; answers how many of them ran all tasks. -/
def performRounds (c : Controller ω) (world : ω) :
    (rounds : Nat) → Option (Nat × Controller ω × ω)
  | 0 => some (0, c, world)
  | rounds + 1 =>
      if c.shouldHalt then some (0, c, world)
      else do
        let (outcomes, after, world) ← c.performRound world
        let complete := if outcomes.length = c.tasks.length then 1 else 0
        let (completed, after, world) ← performRounds after world rounds
        return (complete + completed, after, world)

def summary (c : Controller ω) (roundsCompleted : Nat) : RunSummary where
  policy := c.policy.name
  roundsCompleted := roundsCompleted
  dispatched := c.tick
  failed := c.failed
  stoppedEarly := c.shouldHalt
  tasks := c.records.entries

def run (c : Controller ω) (rounds : Nat) (world : ω) :
    Option (Except Fault RunSummary × Controller ω × ω) :=
  match c.notReady? with
  | some fault => some (.error fault, c, world)
  | none =>
      (c.performRounds world rounds).map fun (completed, c, world) =>
        (.ok (c.summary completed), c, world)

end Controller

end Coordination
