import Coordination.Rounds.Controller

/-!
The life of a controller, step by step: the rounds and runs it is told to perform, and between any two
steps perhaps a stop. A batch begins with the check whether to halt; what happens while it is under way
is part of what its tasks report.
-/

namespace Coordination

deriving instance DecidableEq for Task

/-- A worker that always answers well and is never asked to stop. -/
def Worker.Untroubled {ω : Type} (w : Worker ω) : Prop :=
  ∀ task world, ∃ v elapsedNs after, w.call task world = some (⟨.ok v, elapsedNs, false⟩, after)

def Controller.assemble {ω : Type} (tasks : List Task) (workers : List (Worker ω)) (policy : Policy)
    (mode : Mode) (haltOnFailure : Bool) : Controller ω :=
  tasks.foldl register { create workers policy with mode, haltOnFailure }

namespace Campaign

inductive Command where
  | round
  | run (rounds : Nat)
  deriving DecidableEq, Repr

inductive Answer where
  | refused (fault : Fault)
  | outcomes (outcomes : List TaskOutcome)
  | summary (summary : RunSummary)

/-- Tasks sent out together. There are no outcomes where one of the tasks does not come back. -/
structure Batch (ω : Type) where
  round : Nat
  assignments : List (Controller.Assignment ω)
  outcomes : List TaskOutcome

/-- A round that has ended; it was interrupted if a check kept back one of its batches. -/
structure Lap (ω : Type) where
  batches : List (Batch ω)
  interrupted : Bool

structure Errand (ω : Type) where
  laps : List (Lap ω)
  answer : Answer

/-- A round that is part of a run has behind it the count of rounds still to begin and of those that
ran all tasks. -/
inductive Phase where
  | idle
  | betweenRounds (rounds completed : Nat)
  | inRound (left : List (List Nat)) (series : Option (Nat × Nat))
  | stuck
  deriving DecidableEq, Repr

namespace Lap

variable {ω : Type}

def assignments (lap : Lap ω) : List (Controller.Assignment ω) := lap.batches.flatMap (·.assignments)

def outcomes (lap : Lap ω) : List TaskOutcome := lap.batches.flatMap (·.outcomes)

/-- Whether every one of these tasks was dispatched in the round, once. -/
def complete (tasks : List Task) (lap : Lap ω) : Bool :=
  decide ((lap.assignments.map (·.task)).Perm tasks)

end Lap

end Campaign

section

open Campaign

variable {ω : Type}

namespace Controller

/-- Performs a command in one go. -/
def perform (c : Controller ω) (command : Command) (world : ω) :
    Option (Answer × Controller ω × ω) :=
  match command with
  | .round =>
      (c.runRound world).map fun
        | (.ok outcomes, after) => (.outcomes outcomes, after)
        | (.error fault, after) => (.refused fault, after)
  | .run rounds =>
      (c.run rounds world).map fun
        | (.ok summary, after) => (.summary summary, after)
        | (.error fault, after) => (.refused fault, after)

def performAll (c : Controller ω) (world : ω) :
    List Command → Option (List Answer × Controller ω × ω)
  | [] => some ([], c, world)
  | command :: commands => do
      let (answer, c, world) ← c.perform command world
      let (answers, c, world) ← performAll c world commands
      return (answer :: answers, c, world)

end Controller

end

open Campaign in
structure Campaign (ω : Type) where
  controller : Controller ω
  world : ω
  commands : List Command
  phase : Phase
  errands : List (Errand ω)
  /-- Rounds of the present command that have ended. -/
  laps : List (Lap ω)
  /-- Batches of the present round. -/
  batches : List (Batch ω)

namespace Campaign

variable {ω : Type}

def start (controller : Controller ω) (world : ω) (commands : List Command) : Campaign ω :=
  ⟨controller, world, commands, .idle, [], [], []⟩

/-- The rounds that have ended, in order. -/
def ended (s : Campaign ω) : List (Lap ω) := s.errands.flatMap (·.laps) ++ s.laps

/-- The batches that have been sent, in order. -/
def sent (s : Campaign ω) : List (Batch ω) := s.ended.flatMap (·.batches) ++ s.batches

/-! What is sent. -/

structure Dispatch where
  round : Nat
  tick : Nat
  task : Task
  worker : String

def Batch.dispatches (batch : Batch ω) : List Dispatch :=
  batch.assignments.map fun a => ⟨batch.round, a.tick, a.task, a.worker.id⟩

def dispatched (s : Campaign ω) : List (List Dispatch) := s.sent.map (·.dispatches)

/-! Steps. -/

def respond (s : Campaign ω) (answer : Answer) : Campaign ω :=
  { s with phase := .idle, errands := s.errands ++ [⟨s.laps, answer⟩], laps := [] }

def beginRound (s : Campaign ω) (series : Option (Nat × Nat)) : Campaign ω :=
  let c := s.controller
  let (order, policy) := c.policy.order c.tasks.length
  { s with
    controller := { c with round := c.round + 1, policy }
    phase := .inRound (Controller.batches c.batchSize order) series }

def endRound (s : Campaign ω) (interrupted : Bool) (series : Option (Nat × Nat)) : Campaign ω :=
  let lap : Lap ω := ⟨s.batches, interrupted⟩
  let s := { s with laps := s.laps ++ [lap], batches := [] }
  match series with
  | none => s.respond (.outcomes lap.outcomes)
  | some (rounds, completed) =>
      let complete := if lap.outcomes.length = s.controller.tasks.length then 1 else 0
      { s with phase := .betweenRounds rounds (completed + complete) }

def sendBatch (s : Campaign ω) (batch : List Nat) (left : List (List Nat))
    (series : Option (Nat × Nat)) : Campaign ω :=
  let c := s.controller
  match c.runBatch batch s.world with
  | none =>
      { s with
        controller := { c with tick := c.tick + batch.length }
        phase := .stuck
        batches := s.batches ++ [⟨c.round, c.assignments batch, []⟩] }
  | some (outcomes, controller, world) =>
      { s with
        controller
        world
        phase := .inRound left series
        batches := s.batches ++ [⟨c.round, c.assignments batch, outcomes⟩] }

def proceed (s : Campaign ω) : Campaign ω :=
  match s.phase with
  | .idle =>
      match s.commands with
      | [] => s
      | command :: commands =>
          let s := { s with commands }
          match s.controller.notReady?, command with
          | some fault, _ => s.respond (.refused fault)
          | none, .round => s.beginRound none
          | none, .run rounds => { s with phase := .betweenRounds rounds 0 }
  | .betweenRounds 0 completed => s.respond (.summary (s.controller.summary completed))
  | .betweenRounds (rounds + 1) completed =>
      if s.controller.shouldHalt then s.respond (.summary (s.controller.summary completed))
      else s.beginRound (some (rounds, completed))
  | .inRound [] series => s.endRound false series
  | .inRound (batch :: left) series =>
      if s.controller.shouldHalt then s.endRound true series else s.sendBatch batch left series
  | .stuck => s

def stop (s : Campaign ω) : Campaign ω := { s with controller := s.controller.stop }

inductive Move where
  | stop
  | proceed
  deriving DecidableEq, Repr

def move (s : Campaign ω) : Move → Campaign ω
  | .stop => s.stop
  | .proceed => s.proceed

def after (s : Campaign ω) (moves : List Move) : Campaign ω := moves.foldl move s

end Campaign

end Coordination
