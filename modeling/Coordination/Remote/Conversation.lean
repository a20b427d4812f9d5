import Coordination.Remote.Service

/-! A connection from its opening to its end, and what should be said on it. -/

namespace Coordination

structure Call where
  callId : UInt64
  target : Target
  method : String
  args : List Json

/-- The calls that stand before anything else. -/
def Message.leadingCalls : List Message → List Call
  | .invoke callId target method args :: later =>
      ⟨callId, target, method, args⟩ :: leadingCalls later
  | _ => []

/-- The messages of a stream up to its end or its first flaw. -/
def Frame.messages (stream : Bytes) : List Message := (readAll stream).1.map (·.1)

namespace Service

/-- What a caller is to be told of a call that ended so. -/
inductive Tells (service : Service) : Ending → Outcome → Prop where
  | value (v : Json) : Tells service (.answered (.ok v)) (.ok v)
  | refusal (typeName message : String) (payload : Option Json) :
      Tells service (.answered (.error ⟨typeName, message, payload⟩))
        (.error (.exception typeName message payload))
  | panic (text : String) :
      Tells service (.crashed text)
        (.error (.exception "Panic"
          ("handler panicked: " ++ service.taskName ++ " panicked with message " ++ Text.quoted text)
          none))

variable {σ : Type} [Servant σ]

/-- These calls are dispatched one after the other, each answered before the next, up to the end of the
connection or to a call that does not come back. -/
inductive Answered (service : Service) :
    Dispatcher σ → List Call → List Arrival → Dispatcher σ → Prop where
  | ended (d : Dispatcher σ) : Answered service d [] [.closed] d
  | waiting {d : Dispatcher σ} {call : Call} (later : List Call)
      (dispatched : d.dispatch call.target call.method call.args = none) :
      Answered service d (call :: later) [] d
  | reply {d after last : Dispatcher σ} {call : Call} {later : List Call} {ending : Ending}
      {outcome : Outcome} {millis : Nat} {said : List Arrival}
      (dispatched : d.dispatch call.target call.method call.args = some ⟨ending, after, millis⟩)
      (tells : service.Tells ending outcome) (answered : Answered service after later said last) :
      Answered service d (call :: later)
        (.pause millis ::
          .data (Frame.write (.reply call.callId outcome (.ofNat (millis * 1000000)))) :: said)
        last

/-- Takes the pieces of a stream one after the other. -/
def listen (service : Service) (session : Session) (d : Dispatcher σ) :
    List Bytes → List Arrival × Session × Dispatcher σ
  | [] => ([], session, d)
  | bytes :: later =>
      let (said, session, d) := service.receive bytes session d
      let (more, session, d) := service.listen session d later
      (said ++ more, session, d)

/-- Serves a connection whose stream comes in these pieces and then ends. -/
def converse (service : Service) (pieces : List Bytes) (d : Dispatcher σ) :
    List Arrival × Session × Dispatcher σ :=
  let (said, session, d) := service.listen .fresh d pieces
  let (last, session) := finish session
  (said ++ last, session, d)

end Service

end Coordination
