import Coordination.Board.Counters
import Coordination.Board.Entries
import Coordination.Board.Locks
import Coordination.InPlace

/-!
A blackboard: counters, a shared map and locks under one name. Its operations change it in place, and
each has a form as a value: an answer with the changed board, or a fault.
-/

namespace Coordination

structure Board where
  name : String
  schema : Schema
  counters : Counters schema.counterCount
  entries : Entries
  locks : Locks schema.locks
  deriving DecidableEq

namespace Board

def fresh (name : String) (schema : Schema) : Board :=
  ⟨name, schema, .fresh schema.counterCount, .empty, .ofNames schema.locks⟩

instance : Inhabited Board := ⟨fresh "" default⟩

/-! Counters. -/

def changeCounter (operation : Counter → Int64 × Counter) (id : CounterId) :
    InPlace Fault Board Int64 := do
  let b ← get
  match b.counters.change? operation id with
  | none => throw (.unregisteredCounter b.name id.number)
  | some (answer, counters) =>
      set { b with counters }
      return answer

/-- Adds `delta`; answers the sum. -/
def counterAdd (id : CounterId) (delta : Int64) : InPlace Fault Board Int64 :=
  changeCounter (·.add delta) id

/-- Raises the counter to `candidate` if that is larger; answers whether it was. -/
def counterRaise (id : CounterId) (candidate : Int64) : InPlace Fault Board Bool := do
  let previous ← changeCounter (·.raise candidate) id
  return previous < candidate

/-- Sets the counter to zero; answers its value before. -/
def counterZero (id : CounterId) : InPlace Fault Board Int64 := changeCounter (·.exchange 0) id

def applyCounter (b : Board) (operation : Counter → Int64 × Counter) (id : CounterId) :
    Except Fault (Int64 × Board) :=
  (changeCounter operation id).value b

def addCounter (b : Board) (id : CounterId) (delta : Int64) : Except Fault (Int64 × Board) :=
  (counterAdd id delta).value b

def readCounter (b : Board) (id : CounterId) : Except Fault Int64 :=
  match b.counters.read? id with
  | some value => .ok value
  | none => .error (.unregisteredCounter b.name id.number)

def raiseCounter (b : Board) (id : CounterId) (candidate : Int64) : Except Fault (Bool × Board) :=
  (counterRaise id candidate).value b

def zeroCounter (b : Board) (id : CounterId) : Except Fault (Int64 × Board) :=
  (counterZero id).value b

/-- Names and values of the counters in the order of their declaration. -/
def counterValues (b : Board) : List (String × Int64) :=
  b.schema.counters.zip b.counters.values

/-! Shared map. -/

def put (b : Board) (key : String) (value : Json) : Option Json × Board :=
  ((b.entries.put key value).1, { b with entries := (b.entries.put key value).2 })

def clear (b : Board) : Board := { b with entries := .empty }

/-! Locks. -/

/-- Takes a free lock; answers whether it was free. A held one is refused once `timeout` milliseconds
have passed; without a timeout the attempt is to be made again when the board has changed. -/
def lock (name owner : String) (timeout : Option UInt64) : InPlace Fault Board Bool := do
  let b ← get
  match b.locks.acquire name owner with
  | .undeclared => throw (.unknownLock b.name name)
  | .granted locks =>
      set { b with locks }
      return true
  | .held =>
      match timeout with
      | none => return false
      | some timeoutMs => throw (.lockNotAcquired b.name name timeoutMs)

def unlock (name owner : String) : InPlace Fault Board Unit := do
  let b ← get
  match b.locks.release name owner with
  | .undeclared => throw (.unknownLock b.name name)
  | .released locks => set { b with locks }
  | .notHeld => throw (.lockNotHeld b.name name owner)

/-- Nothing is answered where the lock has to be waited for. -/
def acquire (b : Board) (name owner : String) (timeout : Option UInt64) :
    Option (Except Fault Board) :=
  match (lock name owner timeout).value b with
  | .ok (true, after) => some (.ok after)
  | .ok (false, _) => none
  | .error fault => some (.error fault)

def release (b : Board) (name owner : String) : Except Fault Board :=
  (unlock name owner).final b

def holder (b : Board) (name : String) : Except Fault (Option String) :=
  match b.locks.holder? name with
  | some holder => .ok holder
  | none => .error (.unknownLock b.name name)

end Board

end Coordination
