import Coordination.Remote.Client
import Coordination.Remote.Conversation

/-!
Callers that share one client, whose calls overlap as they like, with a record of everything that goes
over the connections and of every outcome.
-/

namespace Coordination

/-! What goes over connections. -/

/-- Bytes that were sent, with what could be heard because of them. -/
structure Sent where
  connection : Nat
  bytes : Bytes
  heard : Except String (List Arrival)

/-- A world whose connections are numbered as they are opened, and in which all that is sent is
written down. -/
structure Wire (ω : Type) where
  world : ω
  numbers : List Nat
  sent : List Sent

namespace Wire

variable {ω : Type}

def start (world : ω) : Wire ω := ⟨world, [], []⟩

def connect (peers : Peers ω) (w : Wire ω) : Except String Nat × Wire ω :=
  match peers.connect w.world with
  | (.error reason, world) => (.error reason, { w with world })
  | (.ok number, world) =>
      (.ok w.numbers.length, { w with world, numbers := w.numbers ++ [number] })

def send (peers : Peers ω) (connection : Nat) (bytes : Bytes) (w : Wire ω) :
    Except String (List Arrival) × Wire ω :=
  let (heard, world) := peers.send (w.numbers.getD connection connection) bytes w.world
  (heard, { w with world, sent := w.sent ++ [⟨connection, bytes, heard⟩] })

/-- The same peers under observation. -/
def peers (peers : Peers ω) : Peers (Wire ω) := ⟨connect peers, send peers⟩

end Wire

/-! What is done for a call. -/

def Call.message (call : Call) : Message := .invoke call.callId call.target call.method call.args

/-- A call that was placed with a client, the `place`-th from 0. -/
structure Placed where
  place : Nat
  timeout : Option UInt64
  call : Call

/-- What was sent on behalf of a call, or to connect, and the outcome if the call ended with it. -/
structure Deed where
  placed : Option Placed
  sent : List Sent
  outcome : Option Outcome

namespace Deed

def touches (d : Deed) (connection : Nat) : Bool := d.sent.any (·.connection == connection)

/-- What was done on one connection. -/
def carriedBy (connection : Nat) (deeds : List Deed) : List Deed :=
  deeds.filter (·.touches connection)

def Invokes (d : Deed) : Prop :=
  ∃ frame ∈ d.sent, ∃ call : Call, frame.bytes = Frame.write call.message

/-- A call over a connection with these arrivals `unread` got its outcome, in time, from a reply with
its own number. -/
inductive Completes (connection : Nat) (unread : List Arrival) :
    Deed → Outcome → (left : List Arrival) → Prop where
  | reply {placed : Placed} {heard left : List Arrival} {outcome : Outcome} {elapsed : UInt64}
      {millis : Nat}
      (read : Reading.next (unread ++ heard) =
        .message (.reply placed.call.callId outcome elapsed) left millis)
      (inTime : Client.inTime placed.timeout millis) :
      Completes connection unread
        ⟨some placed, [⟨connection, Frame.write placed.call.message, .ok heard⟩], some outcome⟩
        outcome left

/-- All that was done on a connection: greetings between equal versions, then calls that got their
own replies. -/
inductive InStep (connection : Nat) : List Deed → (unread : List Arrival) → Prop where
  | greeted {placed : Option Placed} {clientId nodeId : String} {heard unread : List Arrival}
      {millis : Nat}
      (read : Reading.next heard = .message (.welcome protocolVersion nodeId) unread millis) :
      InStep connection
        [⟨placed, [⟨connection, Frame.write (.hello protocolVersion clientId), .ok heard⟩], none⟩]
        unread
  | completed {earlier : List Deed} {d : Deed} {unread left : List Arrival} {outcome : Outcome}
      (inStep : InStep connection earlier unread)
      (completes : Completes connection unread d outcome left)
      (reusable : Client.reusable outcome) :
      InStep connection (earlier ++ [d]) left

end Deed

/-! Overlapping calls. -/

structure Callers (ω : Type) where
  client : Client
  wire : Wire ω
  placed : Nat
  pending : List (Placed × Connection)
  deeds : List Deed

/-- A call takes a connection when it starts and gives it back when it finishes. -/
inductive Act where
  | start (timeout : Option UInt64) (target : Target) (method : String) (args : List Json)
  | finish (index : Nat)

namespace Callers

variable {ω : Type}

/-- Adds what the wire has carried to the record. -/
def note (s : Callers ω) (placed : Option Placed) (outcome : Option Outcome) (client : Client)
    (wire : Wire ω) : Callers ω :=
  { s with
    client, wire := { wire with sent := [] }
    deeds := s.deeds ++ [⟨placed, wire.sent, outcome⟩] }

def start (peers : Peers ω) (placed : Placed) (s : Callers ω) : Callers ω :=
  let client := { s.client with nextCallId := s.client.nextCallId + 1 }
  let s := { s with placed := s.placed + 1 }
  match Client.checkOut (Wire.peers peers) client s.wire with
  | (none, client, wire) => s.note placed none client wire
  | (some (.error refused), client, wire) =>
      s.note placed (some (Client.unreachable refused.text)) client wire
  | (some (.ok connection), client, wire) =>
      { s.note placed none client wire with pending := s.pending ++ [(placed, connection)] }

def finish (peers : Peers ω) (placed : Placed) (connection : Connection) (s : Callers ω) :
    Callers ω :=
  let (outcome, client, wire) := Client.callOver (Wire.peers peers) placed.timeout placed.call.callId
    placed.call.message connection s.client s.wire
  s.note placed outcome client wire

def step (peers : Peers ω) (s : Callers ω) : Act → Callers ω
  | .start timeout target method args =>
      s.start peers ⟨s.placed, timeout, ⟨s.client.nextCallId, target, method, args⟩⟩
  | .finish index =>
      match s.pending[index]? with
      | none => s
      | some (placed, connection) =>
          ({ s with pending := s.pending.eraseIdx index }).finish peers placed connection

def run (peers : Peers ω) (s : Callers ω) (acts : List Act) : Callers ω :=
  acts.foldl (step peers) s

/-- A client that has just been connected. -/
def connect (peers : Peers ω) (address clientId : String) (poolSize : Nat) (world : ω) :
    Option (Except String (Callers ω)) :=
  (Client.connect (Wire.peers peers) address clientId poolSize (.start world)).map
    fun (result, wire) => result.map fun client =>
      ⟨client, { wire with sent := [] }, 0, [], [⟨none, wire.sent, none⟩]⟩

end Callers

end Coordination
