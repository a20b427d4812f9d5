import Coordination.Board.Summary

/-!
A caller's view of one blackboard. Every operation is at most one call to the host; counters and
locks that the schema does not declare are refused before that.
-/

namespace Coordination

/-- An operation in a world `ω`; it has no result if it never comes back to its caller. -/
abbrev Access (ω : Type) := ExceptT Fault (StateT ω Option)

structure Handle (ω : Type) where
  name : String
  schema : Schema
  channel : Channel ω
  clientId : String
  /-- Time to wait for a lock, in milliseconds, where the caller gives none. -/
  lockTimeout : Option UInt64

namespace Handle

variable {ω α : Type}

open Json (Decoder)

def decoded (decode : Decoder α) (value : Json) : Except Fault α :=
  (decode value).mapError .ofDecodeError

/-- Calls a method of the host on this board and decodes the reply. -/
def call (h : Handle ω) (decode : Decoder α) (method : Host.Method) (args : List Json) :
    Access ω α := do
  let invoke : StateT ω Option Outcome :=
    h.channel.invoke none (.ofClass Host.className) method.name (.string h.name :: args)
  match ← ExceptT.lift invoke with
  | .error failure => throw (Fault.ofFailure failure)
  | .ok value => liftExcept (decoded decode value)
where
  liftExcept (result : Except Fault α) : Access ω α := ExceptT.mk (pure result)

def attach (h : Handle ω) : Access ω Unit :=
  (fun _ => ()) <$> h.call Decoder.json .attach [h.schema.toJson]

/-! Counters. -/

def counterId (h : Handle ω) (name : String) : Except Fault CounterId :=
  match h.schema.counterId? name with
  | some id => .ok id
  | none => .error (.unknownCounterName h.name name)

def callCounter (h : Handle ω) (decode : Decoder α) (method : Host.Method) (id : CounterId)
    (args : List Json) : Access ω α :=
  if h.schema.hasCounter id then h.call decode method (id.toJson :: args)
  else throw (.unregisteredCounter h.name id.number)

def addAndRead (h : Handle ω) (id : CounterId) (delta : Int64) : Access ω Int64 :=
  h.callCounter Decoder.int64 .counterAdd id [Host.intJson delta]

def incrementAndRead (h : Handle ω) (id : CounterId) : Access ω Int64 := h.addAndRead id 1

def incrementBy (h : Handle ω) (id : CounterId) (delta : Int64) : Access ω Unit :=
  (fun _ => ()) <$> h.addAndRead id delta

def increment (h : Handle ω) (id : CounterId) : Access ω Unit := h.incrementBy id 1

def decrement (h : Handle ω) (id : CounterId) : Access ω Unit := h.incrementBy id (-1)

def read (h : Handle ω) (id : CounterId) : Access ω Int64 :=
  h.callCounter Decoder.int64 .counterRead id []

/-- Raises a counter to `candidate` if that is larger; answers whether it was. -/
def setIfLarger (h : Handle ω) (id : CounterId) (candidate : Int64) : Access ω Bool :=
  h.callCounter Decoder.bool .counterRaise id [Host.intJson candidate]

/-- Sets a counter to zero; answers its value before. -/
def zero (h : Handle ω) (id : CounterId) : Access ω Int64 :=
  h.callCounter Decoder.int64 .counterZero id []

def readAll (h : Handle ω) : Access ω (List (String × Int64)) :=
  h.schema.counters.zip <$> h.call (Decoder.list Decoder.int64) .counterReadAll []

/-! Shared map. Keys travel as their canonical texts. -/

def keyJson (key : Json) : Json := .string (keyText key)

def put (h : Handle ω) (key value : Json) : Access ω Unit :=
  (fun _ => ()) <$> h.call Decoder.json .mapPut [keyJson key, value]

/-- Value of an entry, decoded, if the entry is there. -/
def get (h : Handle ω) (decode : Decoder α) (key : Json) : Access ω (Option α) := do
  let (found, value) ← h.call (Decoder.pair Decoder.bool Decoder.json) .mapGet [keyJson key]
  if found then
    match decoded decode value with
    | .ok a => return some a
    | .error fault => throw fault
  else return none

def containsKey (h : Handle ω) (key : Json) : Access ω Bool :=
  h.call Decoder.bool .mapContains [keyJson key]

def clear (h : Handle ω) : Access ω Unit :=
  (fun _ => ()) <$> h.call Decoder.json .mapClear []

def size (h : Handle ω) : Access ω Nat := h.call Decoder.count .mapSize []

def snapshot (h : Handle ω) : Access ω (List (String × Json)) :=
  h.call (Decoder.list (Decoder.pair Decoder.string Decoder.json)) .mapSnapshot []

/-! Locks. -/

def callLock (h : Handle ω) (method : Host.Method) (name : String) (args : List Json) :
    Access ω Unit :=
  if h.schema.hasLock name then
    (fun _ => ()) <$> h.call Decoder.json method (.string name :: .string h.clientId :: args)
  else throw (.unknownLock h.name name)

def timeoutJson : Option UInt64 → Json := Json.ofOption fun timeout => .ofNat timeout.toNat

def lock (h : Handle ω) (name : String) : Access ω Unit :=
  h.callLock .lock name [timeoutJson h.lockTimeout]

def lockWithin (h : Handle ω) (name : String) (timeoutMs : UInt64) : Access ω Unit :=
  h.callLock .lock name [timeoutJson (some timeoutMs)]

def unlock (h : Handle ω) (name : String) : Access ω Unit := h.callLock .unlock name []

/-- Runs `body` while holding a lock, which is given back whether or not `body` fails. A failure of
`body` goes before one of giving back. -/
def withLock (h : Handle ω) (name : String) (body : Access ω α) : Access ω α := do
  h.lock name
  let result ← ExceptT.lift body.run
  let unlocked ← ExceptT.lift (h.unlock name).run
  match result, unlocked with
  | .error fault, _ => throw fault
  | .ok _, .error fault => throw fault
  | .ok a, .ok _ => return a

/-! Descriptions. -/

def summary (h : Handle ω) : Access ω Summary := do
  let counters ← h.readAll
  let mapSize ← h.size
  return ⟨h.name, h.channel.transport, counters, mapSize⟩

def shown (h : Handle ω) : String :=
  "Blackboard \x7b name: " ++ Text.quoted h.name ++ ", kind: " ++ h.channel.transport.name ++
    ", peer: " ++ Text.quoted h.channel.peer ++ ", client_id: " ++ Text.quoted h.clientId ++ " \x7d"

end Handle

end Coordination
