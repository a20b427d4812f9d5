import Coordination.Remote.Frame

/-! What the two ends of a connection see of each other. -/

namespace Coordination

/-- A piece of what one end of a connection hears from the other. -/
inductive Arrival where
  | data (bytes : Bytes)
  | pause (millis : Nat)
  | closed
  deriving DecidableEq, Repr

/-- What comes of waiting for a message, and after how many milliseconds. Nothing comes from a
connection that stays open and silent. -/
inductive Reading where
  | message (m : Message) (later : List Arrival) (millis : Nat)
  | flawed (flaw : Frame.Flaw) (millis : Nat)
  | silent

namespace Reading

def after (pause : Nat) : Reading → Reading
  | .message m later millis => .message m later (pause + millis)
  | .flawed flaw millis => .flawed flaw (pause + millis)
  | .silent => .silent

/-- Waits for a message, with the bytes `arrived` at hand. -/
def start (arrived : Bytes) : List Arrival → Reading
  | [] =>
      match Frame.scan arrived with
      | .message m rest => .message m [.data rest] 0
      | .flawed flaw => .flawed flaw 0
      | .partialLength | .partialBody => .silent
  | next :: later =>
      match Frame.scan arrived, next with
      | .message m rest, _ => .message m (.data rest :: next :: later) 0
      | .flawed flaw, _ => .flawed flaw 0
      | _, .data bytes => start (arrived ++ bytes) later
      | _, .pause millis => (start arrived later).after millis
      | .partialLength, .closed => .flawed .noLength 0
      | .partialBody, .closed => .flawed .noBody 0

def next (arrivals : List Arrival) : Reading := start [] arrivals

end Reading

/-- The nodes that a caller may reach, as parts of a world `ω`. Opening a connection gives it a
number; sending bytes into it brings what can be heard from the other end because of them. Both may
fail, with a reason. -/
structure Peers (ω : Type) where
  connect : ω → Except String Nat × ω
  send : (connection : Nat) → Bytes → ω → Except String (List Arrival) × ω

end Coordination
