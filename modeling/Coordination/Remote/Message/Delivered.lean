import Coordination.Json.Nesting
import Coordination.Remote.Frame

/-!
What becomes of a message on its way: a cause of null arrives as no cause, and all else as it was sent.
Messages that can be sent hold proper values, not nested too deeply, and fit into a frame.
-/

namespace Coordination

namespace Failure

def delivered : Failure → Failure
  | .exception typeName message (some .null) => .exception typeName message none
  | failure => failure

def Valid : Failure → Prop
  | .exception _ _ (some payload) => payload.Valid
  | _ => True

/-- Nesting of the packed failure, whose fields stand in an array. -/
def nesting : Failure → Nat
  | .exception _ _ (some payload) => payload.nesting + 1
  | _ => 1

end Failure

namespace Outcome

def delivered (outcome : Outcome) : Outcome := outcome.mapError Failure.delivered

def Valid : Outcome → Prop
  | .ok v => v.Valid
  | .error failure => failure.Valid

def nesting : Outcome → Nat
  | .ok v => v.nesting
  | .error failure => failure.nesting

end Outcome

namespace Message

def delivered : Message → Message
  | .reply callId outcome elapsed => .reply callId (Outcome.delivered outcome) elapsed
  | m => m

def Valid : Message → Prop
  | .invoke _ _ _ args => Json.ValidItems args
  | .reply _ outcome _ => Outcome.Valid outcome
  | _ => True

/-- Nesting of the packed message, whose fields stand in an array; choices do not count. -/
def nesting : Message → Nat
  | .invoke _ _ _ args => Json.itemsNesting args + 2
  | .reply _ outcome _ => Outcome.nesting outcome + 1
  | _ => 1

structure Sendable (m : Message) : Prop where
  valid : m.Valid
  nested : m.nesting < nestingBudget
  short : m.bytes.length ≤ Frame.maxBody

end Message

end Coordination
