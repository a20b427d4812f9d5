import Coordination.Statistics.Registry

/-!
What the statistics of one process go through, event by event. Whoever asked for an instance keeps its
number, and may still use it when the instance has been closed and another one has its name.
-/

namespace Coordination

namespace Instance

inductive Update where
  | increment (metric : String)
  | incrementBy (metric : String) (n : Int64)
  | incrementInt (metric : String) (n : Int32)
  | incrementLong (metric : String) (n : Int64)
  | setGauge (metric : String) (value : Binary64)
  deriving DecidableEq

def Update.inPlace : Update → InPlace Fault Instance Unit
  | .increment metric => counterAdd metric 1
  | .incrementBy metric n => counterAdd metric n
  | .incrementInt metric n => intCounterAdd metric n
  | .incrementLong metric n => longCounterAdd metric n
  | .setGauge metric value => gaugeSet metric value

def perform (i : Instance) (u : Update) : Except Fault Instance := u.inPlace.final i

end Instance

namespace Registry

inductive Event where
  | register (t : StatisticsType)
  | obtain (typeName : String) (scope : Scope) (name trim : Option String)
  | update (number : Nat) (u : Instance.Update)
  /-- The clock is read for every sample anew. -/
  | sampleAll (moment : Nat → UInt64)
  | close (number : Nat) (now : UInt64)

/-- The instance that an event closes, or tries to. -/
def Event.closed? : Event → Option Nat
  | .close number _ => some number
  | _ => none

def Event.updated? : Event → Option Nat
  | .update number _ => some number
  | _ => none

/-- An update by number, of a live instance or a closed one, where the instance is. -/
def updateInstance (number : Nat) (u : Instance.Update) : InPlace Fault Registry Unit := do
  let r ← get
  match r.instance? number with
  | none => return ()
  | some i =>
      let (result, after) := u.inPlace.on i
      set (r.replaceInstance number after)
      .ofResult result

def update (r : Registry) (number : Nat) (u : Instance.Update) : Except Fault Registry :=
  (updateInstance number u).final r

/-- Adds a sample of every live instance, each with the time at which it is taken. -/
def sampleEach (r : Registry) (moment : Nat → UInt64) : Registry :=
  r.addSamples (r.liveInstances.mapIdx fun place i => i.sample (moment place))

/-- Where an event leads, whether or not it is refused. -/
def step (r : Registry) : Event → Registry
  | .register t => (ensureType t).left r
  | .obtain typeName scope name trim => (ensureInstance typeName scope name trim).left r
  | .update number u => (updateInstance number u).left r
  | .sampleAll moment => r.sampleEach moment
  | .close number now => (r.close number now).2

def after (r : Registry) (events : List Event) : Registry := events.foldl step r

end Registry

end Coordination
