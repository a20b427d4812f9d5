import Coordination.Remote.Arrival

/-! Peers that follow a script, whatever it is that they are asked. -/

namespace Coordination

/-- What a scripted peer does on a message. -/
inductive Move where
  | hang
  | close
  | say (bytes : Bytes)
  /-- Answers a call under its own number. -/
  | reply (outcome : Outcome)

namespace Move

def callId : Message → UInt64
  | .invoke id _ _ _ => id
  | _ => 0

def arrivals (heard : Message) : Move → List Arrival
  | .hang => []
  | .close => [.closed]
  | .say bytes => [.data bytes]
  | .reply outcome => [.data (Frame.write (.reply (callId heard) outcome 0))]

end Move

/-- A connection to a scripted peer: what is left of the script, and the messages heard so far. -/
structure ScriptedConnection where
  moves : List Move
  heard : List Message

/-- The scripts of the connections to come, and the connections that were made. -/
structure ScriptedPeers where
  waiting : List (List Move)
  connections : List ScriptedConnection

namespace ScriptedPeers

def start (scripts : List (List Move)) : ScriptedPeers := ⟨scripts, []⟩

def connect (w : ScriptedPeers) : Except String Nat × ScriptedPeers :=
  match w.waiting with
  | [] => (.error "Connection refused (os error 111)", w)
  | moves :: waiting => (.ok w.connections.length, ⟨waiting, w.connections ++ [⟨moves, []⟩]⟩)

/-- Behind the end of its script a peer hears one message and closes. -/
def send (connection : Nat) (bytes : Bytes) (w : ScriptedPeers) :
    Except String (List Arrival) × ScriptedPeers :=
  match w.connections[connection]?, Frame.decode bytes with
  | some c, .ok (m, _) =>
      let move := c.moves.head?.getD .close
      (.ok (move.arrivals m),
        { w with connections := w.connections.set connection ⟨c.moves.tail, c.heard ++ [m]⟩ })
  | _, _ => (.ok [.closed], w)

def peers : Peers ScriptedPeers := ⟨connect, send⟩

end ScriptedPeers

end Coordination
