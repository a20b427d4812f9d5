import Coordination.Statistics.Ledger

/-!
Threads that share the statistics of one process. A call goes from one locked section to the next, and
between any two of its steps others may come in. Whoever has entered the archive keeps everybody else
from it until it leaves. What is filed there is noted down with its instance and the thread that took it.
-/

namespace Coordination

namespace Threads

inductive Request where
  | sampleAll
  | close (number : Nat)
  | obtain (typeName : String) (scope : Scope) (name trim : Option String)
  deriving DecidableEq

inductive Answer where
  | sampled (count : Nat)
  | closed (removed : Bool)
  | obtained (result : Except Fault Nat)

/-- What samples are taken for: a round, or the end of an instance. -/
inductive Purpose where
  | round
  | last (number : Nat)
  deriving DecidableEq

structure Filed where
  thread : Nat
  number : Nat
  sample : Sample
  deriving DecidableEq

/-- What a thread is about to do for its call. -/
inductive Stage where
  | closing (number : Nat)
  | entering (purpose : Purpose)
  | listing
  | taking (purpose : Purpose) (left : List Nat) (taken : List Filed)
  | leaving (answer : Answer)
  | finding (typeName : String) (scope : Scope) (name trim : Option String)
  | looking (t : StatisticsType) (key : InstanceKey) (scope : Scope)
  | making (t : StatisticsType) (key : InstanceKey) (scope : Scope)
  | done (answer : Answer)

inductive Event where
  | call (request : Request)
  /-- An update of an instance, live or closed, by anybody. -/
  | update (number : Nat) (u : Instance.Update)
  /-- A thread takes its next step, unless the archive is taken that it has to enter. -/
  | proceed (thread : Nat) (now : UInt64)
  deriving DecidableEq

def Request.stage : Request → Stage
  | .sampleAll => .entering .round
  | .close number => .closing number
  | .obtain typeName scope name trim => .finding typeName scope name trim

/-- What comes first in the archive. -/
def Purpose.stage : Purpose → Stage
  | .round => .listing
  | .last number => .taking (.last number) [number] []

def Purpose.answer (taken : List Filed) : Purpose → Answer
  | .round => .sampled taken.length
  | .last _ => .closed true

end Threads

structure Threads where
  registry : Registry
  /-- The thread that is in the archive. -/
  holder : Option Nat
  /-- Threads by the order of their calls. -/
  stages : List Threads.Stage
  filed : List Threads.Filed

namespace Threads

def start (r : Registry) : Threads := ⟨r, none, [], []⟩

def goTo (s : Threads) (thread : Nat) (stage : Stage) : Threads :=
  { s with stages := s.stages.set thread stage }

def remove (s : Threads) (thread number : Nat) : Threads :=
  match s.registry.instance? number with
  | none => s.goTo thread (.done (.closed false))
  | some i =>
      let (removed, registry) := s.registry.deregister i
      { s with registry }.goTo thread
        (if removed then .entering (.last number) else .done (.closed false))

def enter (s : Threads) (thread : Nat) (purpose : Purpose) : Threads :=
  match s.holder with
  | none => { s with holder := some thread }.goTo thread purpose.stage
  | some _ => s

def take (s : Threads) (thread : Nat) (now : UInt64) (purpose : Purpose) (number : Nat)
    (left : List Nat) (taken : List Filed) : Threads :=
  let more := (s.registry.instance? number).toList.map fun i => ⟨thread, number, i.sample now⟩
  s.goTo thread (.taking purpose left (taken ++ more))

def file (s : Threads) (thread : Nat) (purpose : Purpose) (taken : List Filed) : Threads :=
  { s with
    registry := s.registry.addSamples (taken.map Filed.sample)
    filed := s.filed ++ taken }.goTo thread (.leaving (purpose.answer taken))

def leave (s : Threads) (thread : Nat) (answer : Answer) : Threads :=
  { s with holder := none }.goTo thread (.done answer)

def find (s : Threads) (thread : Nat) (typeName : String) (scope : Scope)
    (name trim : Option String) : Threads :=
  match s.registry.type typeName with
  | .error fault => s.goTo thread (.done (.obtained (.error fault)))
  | .ok t =>
      let key := ⟨typeName, scope.instanceName s.registry.archive.processId name trim⟩
      s.goTo thread (.looking t key scope)

def look (s : Threads) (thread : Nat) (t : StatisticsType) (key : InstanceKey) (scope : Scope) :
    Threads :=
  match s.registry.live.get? key with
  | some number => s.goTo thread (.done (.obtained (.ok number)))
  | none => s.goTo thread (.making t key scope)

def addInstance (r : Registry) (t : StatisticsType) (key : InstanceKey) (scope : Scope) : Registry :=
  { r with
    instances := r.instances ++ [.fresh t key.name scope]
    live := r.live.insert key r.instances.length }

/-- Another thread may have made the instance since this one looked for it. -/
def make (s : Threads) (thread : Nat) (t : StatisticsType) (key : InstanceKey) (scope : Scope) :
    Threads :=
  match s.registry.live.get? key with
  | some number => s.goTo thread (.done (.obtained (.ok number)))
  | none =>
      { s with registry := addInstance s.registry t key scope }.goTo thread
        (.done (.obtained (.ok s.registry.instances.length)))

def proceed (s : Threads) (thread : Nat) (now : UInt64) : Stage → Threads
  | .closing number => s.remove thread number
  | .entering purpose => s.enter thread purpose
  | .listing => s.goTo thread (.taking .round s.registry.live.values [])
  | .taking purpose [] taken => s.file thread purpose taken
  | .taking purpose (number :: left) taken => s.take thread now purpose number left taken
  | .leaving answer => s.leave thread answer
  | .finding typeName scope name trim => s.find thread typeName scope name trim
  | .looking t key scope => s.look thread t key scope
  | .making t key scope => s.make thread t key scope
  | .done _ => s

def step (s : Threads) : Event → Threads
  | .call request => { s with stages := s.stages ++ [request.stage] }
  | .update number u =>
      { s with registry := (Registry.updateInstance number u).left s.registry }
  | .proceed thread now =>
      match s.stages[thread]? with
      | some stage => s.proceed thread now stage
      | none => s

def run (s : Threads) (events : List Event) : Threads := events.foldl step s

/-! Updates of one instance. -/

def Event.update? (number : Nat) : Event → Option Instance.Update
  | .update other u => if other = number then some u else none
  | _ => none

/-- Updates of an instance among some events. -/
def updatesOf (number : Nat) (events : List Event) : List Instance.Update :=
  events.filterMap (Event.update? number)

end Threads

end Coordination
