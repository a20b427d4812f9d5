import Coordination.Statistics.Sampler
import Coordination.Statistics.Threads

/-!
A sampler beside the threads that use the statistics. It waits until its interval is over or it is told to
stop, calls for a round as any other thread does, and writes the archive once nobody else is in there.
-/

namespace Coordination

def Threads.Stage.isDone : Threads.Stage → Bool
  | .done _ => true
  | _ => false

namespace Sampling

/-- What the sampler is at. Its `last` round is the one that it takes when it has been told to stop. -/
inductive Stage where
  | waiting
  | sampling (call : Nat) (last : Bool)
  | persisting (last : Bool)
  | finished (rounds : Nat)
  deriving DecidableEq

/-- The call for a round that is under way. -/
def Stage.call? : Stage → Option Nat
  | .sampling call _ => some call
  | _ => none

inductive Event where
  /-- The interval is over. -/
  | elapse
  /-- The sampler is told to stop, or its handle is dropped. -/
  | stop
  /-- The sampler takes its next step, unless it waits or somebody is in the archive that it has to write. -/
  | proceed (now : UInt64)
  | statistics (event : Threads.Event)
  /-- Others have been at the files. -/
  | disk (files : Files)
  deriving DecidableEq

end Sampling

structure Sampling where
  threads : Threads
  files : Files
  sampler : Sampler
  stopping : Bool
  stage : Sampling.Stage

namespace Sampling

def start (threads : Threads) (files : Files) (directory : Option String) : Sampling :=
  ⟨threads, files, .start directory, false, .waiting⟩

def beginRound (s : Sampling) (last : Bool) : Sampling :=
  { s with
    threads := s.threads.step (.call .sampleAll)
    stage := .sampling s.threads.stages.length last }

def countRound (s : Sampling) (last : Bool) : Sampling :=
  { s with
    sampler := { s.sampler with rounds := s.sampler.rounds + 1 }
    stage := .persisting last }

/-- Answers how many rounds there were, after the last one. -/
def persist (s : Sampling) (last : Bool) : Sampling :=
  { s with
    files := s.sampler.persist s.threads.registry s.files
    stage := if last then .finished s.sampler.rounds else .waiting }

def proceed (s : Sampling) (now : UInt64) : Sampling :=
  match s.stage with
  | .waiting => if s.stopping then s.beginRound true else s
  | .sampling call last =>
      match s.threads.stages[call]? with
      | some (.done _) => s.countRound last
      | _ => { s with threads := s.threads.step (.proceed call now) }
  | .persisting last =>
      if s.sampler.directory.isSome && s.threads.holder.isSome then s else s.persist last
  | .finished _ => s

def step (s : Sampling) : Event → Sampling
  | .elapse => if s.stage = .waiting ∧ s.stopping = false then s.beginRound false else s
  | .stop => { s with stopping := true }
  | .proceed now => s.proceed now
  | .statistics event => { s with threads := s.threads.step event }
  | .disk files => { s with files }

def run (s : Sampling) (events : List Event) : Sampling := events.foldl step s

/-- A round begins by this event. -/
def begins (s : Sampling) (event : Event) : Bool :=
  s.stage = .waiting && match event with
    | .elapse => !s.stopping
    | .proceed _ => s.stopping
    | _ => false

/-- Count of the rounds that begin by some events. -/
def roundsBegun (s : Sampling) : List Event → Nat
  | [] => 0
  | event :: rest => (s.begins event).toNat + (s.step event).roundsBegun rest

/-- Nobody but the sampler has a call under way. -/
def OthersDone (s : Sampling) : Prop :=
  ∀ thread, (inside : thread < s.threads.stages.length) →
    s.stage.call? = some thread ∨ s.threads.stages[thread].isDone = true

instance (s : Sampling) : Decidable s.OthersDone := Nat.decidableBallLT _ _

end Sampling

end Coordination
