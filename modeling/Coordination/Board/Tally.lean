import Coordination.Board.Cluster
import Coordination.Board.Work

/-!
Clients that count in one entry of a board, each call while holding the lock that guards the entry.
Between any two operations of a client others may come in. A client that waits for the lock is one
whose turn has not come. All of them call within the process; a call over a connection comes to the same
where `Client.call_as_in_process` applies.
-/

namespace Coordination

structure Tally where
  board : String
  lock : String
  key : Json
  deriving DecidableEq

namespace Tally

def work (t : Tally) : Work Unit := .withLock t.lock (.countUp t.key)

def shown (t : Tally) (host : Host) : Option Json :=
  (host.boards.get? t.board).bind fun b => b.entries.get? (keyText t.key)

/-- The call touches neither the entry nor its lock. -/
def Spared (t : Tally) (method : String) (args : List Json) : Prop :=
  args[0]? = some (.string t.board) →
    method ≠ Host.Method.mapClear.name ∧
      (method = Host.Method.mapPut.name → args[1]? ≠ some (.string (keyText t.key))) ∧
      (method = Host.Method.lock.name ∨ method = Host.Method.unlock.name →
        args[1]? ≠ some (.string t.lock))

instance (t : Tally) (method : String) (args : List Json) : Decidable (t.Spared method args) :=
  inferInstanceAs (Decidable (_ → _))

/-- A call by somebody who is not a client. -/
structure Aside (t : Tally) where
  method : String
  args : List Json
  spared : t.Spared method args

end Tally

/-! Clients at work. -/

namespace Workshop

structure Contract where
  clientId : String
  lockTimeout : Option UInt64
  calls : Nat
  deriving DecidableEq

structure Worker where
  handle : Handle Cluster
  /-- Calls that have not returned yet. -/
  calls : Nat
  /-- What is left to do of the present call. -/
  rest : Work Unit
  /-- Whether the present call has changed the entry. -/
  changed : Bool

structure Returned where
  result : Except Fault Unit
  changed : Bool
  deriving DecidableEq

inductive Event (t : Tally) where
  /-- The worker with this number performs its next operation. -/
  | work (index : Nat)
  | aside (call : t.Aside)

end Workshop

structure Workshop where
  cluster : Cluster
  workers : List Workshop.Worker
  returned : List Workshop.Returned

namespace Workshop

def worker (t : Tally) (schema : Schema) (contract : Contract) : Worker where
  handle := ⟨t.board, schema, Cluster.inProcess, contract.clientId, contract.lockTimeout⟩
  calls := contract.calls
  rest := t.work
  changed := false

def Worker.marked (worker : Worker) (differs : Bool) : Worker :=
  { worker with changed := worker.changed || differs }

/-- The worker as it turns to its next call. -/
def Worker.rested (t : Tally) (worker : Worker) : Worker :=
  { worker with calls := worker.calls - 1, rest := t.work, changed := false }

def start (t : Tally) (schema : Schema) (contracts : List Contract) (cluster : Cluster) :
    Workshop :=
  ⟨cluster, contracts.map (worker t schema), []⟩

/-- The worker goes on with its call, or turns to the next one if this one has ended. -/
def resume (w : Workshop) (t : Tally) (index : Nat) (worker : Worker) : Work Unit → Workshop
  | .ended result =>
      { w with
        workers := w.workers.set index (worker.rested t)
        returned := ⟨result, worker.changed⟩ :: w.returned }
  | rest => { w with workers := w.workers.set index { worker with rest } }

def advance (w : Workshop) (t : Tally) (index : Nat) (worker : Worker) : Workshop :=
  match worker.rest with
  | .ended result => w.resume t index worker (.ended result)
  | .operate operation next =>
      match (operation.perform worker.handle).run.run w.cluster with
      | none => w
      | some (answer, cluster) =>
          let differs := decide (t.shown cluster.host ≠ t.shown w.cluster.host)
          { w with cluster }.resume t index (worker.marked differs) (next answer)

def step (t : Tally) (w : Workshop) : Event t → Workshop
  | .work index =>
      match w.workers[index]? with
      | some worker => if worker.calls = 0 then w else w.advance t index worker
      | none => w
  | .aside call =>
      let target := Target.ofClass Host.className
      match Cluster.inProcess.invoke none target call.method call.args w.cluster with
      | some (_, cluster) => { w with cluster }
      | none => w

def run (t : Tally) (w : Workshop) : List (Event t) → Workshop
  | [] => w
  | event :: rest => run t (w.step t event) rest

def successes (w : Workshop) : Nat := w.returned.countP fun call => call.result = .ok ()

def AllDone (w : Workshop) : Prop := ∀ worker ∈ w.workers, worker.calls = 0

instance (w : Workshop) : Decidable w.AllDone :=
  inferInstanceAs (Decidable (∀ worker ∈ w.workers, worker.calls = 0))

end Workshop

end Coordination
