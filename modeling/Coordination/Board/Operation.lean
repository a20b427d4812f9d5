import Coordination.Board.Handle

/-!
The operations that callers perform on a blackboard, as values. One and the same operation can be
performed through a handle and on a board itself.
-/

namespace Coordination

inductive Operation where
  | increment (id : CounterId)
  | incrementBy (id : CounterId) (delta : Int64)
  | decrement (id : CounterId)
  | read (id : CounterId)
  | incrementAndRead (id : CounterId)
  | addAndRead (id : CounterId) (delta : Int64)
  | setIfLarger (id : CounterId) (candidate : Int64)
  | zero (id : CounterId)
  | readAll
  | put (key value : Json)
  | get (key : Json)
  | containsKey (key : Json)
  | clear
  | size
  | snapshot
  | lock (name : String)
  | lockWithin (name : String) (timeoutMs : UInt64)
  | unlock (name : String)
  deriving DecidableEq

inductive Answer where
  | done
  | number (n : Int64)
  | truth (b : Bool)
  | values (counters : List (String × Int64))
  | found (value : Option Json)
  | count (n : Nat)
  | listing (entries : List (String × Json))
  deriving DecidableEq

namespace Operation

variable {ω : Type}

/-- Performs an operation through a handle. -/
def perform (h : Handle ω) : Operation → Access ω Answer
  | .increment id => (fun _ => .done) <$> h.increment id
  | .incrementBy id delta => (fun _ => .done) <$> h.incrementBy id delta
  | .decrement id => (fun _ => .done) <$> h.decrement id
  | .read id => .number <$> h.read id
  | .incrementAndRead id => .number <$> h.incrementAndRead id
  | .addAndRead id delta => .number <$> h.addAndRead id delta
  | .setIfLarger id candidate => .truth <$> h.setIfLarger id candidate
  | .zero id => .number <$> h.zero id
  | .readAll => .values <$> h.readAll
  | .put key value => (fun _ => .done) <$> h.put key value
  | .get key => .found <$> h.get Json.Decoder.json key
  | .containsKey key => .truth <$> h.containsKey key
  | .clear => (fun _ => .done) <$> h.clear
  | .size => .count <$> h.size
  | .snapshot => .listing <$> h.snapshot
  | .lock name => (fun _ => .done) <$> h.lock name
  | .lockWithin name timeoutMs => (fun _ => .done) <$> h.lockWithin name timeoutMs
  | .unlock name => (fun _ => .done) <$> h.unlock name

/-! On the board itself. -/

def answered {α : Type} (answer : α → Answer) (result : Except Fault (α × Board)) :
    Except Fault (Answer × Board) :=
  (fun (a, after) => (answer a, after)) <$> result

/-- A result that leaves the board as it is. -/
def seen (b : Board) (answer : Answer) : Option (Except Fault (Answer × Board)) :=
  some (.ok (answer, b))

def done (after : Board) : Answer × Board := (.done, after)

/-- Performs an operation on a board in the name of `owner`, who waits for `lockTimeout` where the
operation itself gives no time. There is no result yet while a lock has to be waited for. -/
def onBoard (owner : String) (lockTimeout : Option UInt64) (b : Board) :
    Operation → Option (Except Fault (Answer × Board))
  | .increment id => some (answered (fun _ => .done) (b.addCounter id 1))
  | .incrementBy id delta => some (answered (fun _ => .done) (b.addCounter id delta))
  | .decrement id => some (answered (fun _ => .done) (b.addCounter id (-1)))
  | .read id => some ((fun value => (.number value, b)) <$> b.readCounter id)
  | .incrementAndRead id => some (answered .number (b.addCounter id 1))
  | .addAndRead id delta => some (answered .number (b.addCounter id delta))
  | .setIfLarger id candidate => some (answered .truth (b.raiseCounter id candidate))
  | .zero id => some (answered .number (b.zeroCounter id))
  | .readAll => seen b (.values b.counterValues)
  | .put key value => some (.ok (done (b.put (keyText key) value).2))
  | .get key => seen b (.found (b.entries.get? (keyText key)))
  | .containsKey key => seen b (.truth (b.entries.contains (keyText key)))
  | .clear => some (.ok (done b.clear))
  | .size => seen b (.count b.entries.size)
  | .snapshot => seen b (.listing b.entries.snapshot)
  | .lock name => (b.acquire name owner lockTimeout).map (done <$> ·)
  | .lockWithin name timeoutMs => (b.acquire name owner (some timeoutMs)).map (done <$> ·)
  | .unlock name => some (done <$> b.release name owner)

end Operation

/-! On a host. -/

namespace Host

/-- Keeps the board that an operation leaves behind; one that fails leaves everything as it was. -/
def commit {α : Type} (h : Host) : Except Fault (α × Board) → Except Fault α × Host
  | .ok (a, after) => (.ok a, h.replaceBoard after)
  | .error fault => (.error fault, h)

/-- Performs an operation on the board of this name. -/
def operate (h : Host) (name owner : String) (lockTimeout : Option UInt64)
    (operation : Operation) : Option (Except Fault Answer × Host) :=
  match h.board name with
  | .error fault => some (.error fault, h)
  | .ok b => (operation.onBoard owner lockTimeout b).map h.commit

end Host

end Coordination
