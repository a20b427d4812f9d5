import Coordination.Json.Decoder

/-! How a remote call fails, with its text and its JSON form. -/

namespace Coordination

/-- A call is unreachable if the method may not have run, an exception if it ran and failed, and timed
out if the caller gave up waiting. -/
inductive Failure where
  | unreachable (reason : String)
  | exception (typeName message : String) (payload : Option Json)
  | timeout (afterMs : UInt64)
  deriving DecidableEq, Inhabited

namespace Failure

def message : Failure → String
  | .unreachable reason => "remote unreachable: " ++ reason
  | .exception typeName message _ => "remote exception " ++ typeName ++ ": " ++ message
  | .timeout afterMs => s!"remote call timed out after {afterMs}ms"

def isUnreachable : Failure → Bool
  | .unreachable _ => true
  | _ => false

def kindName : Failure → String
  | .unreachable _ => "Unreachable"
  | .exception .. => "Exception"
  | .timeout _ => "Timeout"

def fieldsJson : Failure → Json
  | .unreachable reason => .object [("reason", .string reason)]
  | .exception typeName message payload =>
      .object [("type_name", .string typeName), ("message", .string message),
        ("payload", payload.getD .null)]
  | .timeout afterMs => .object [("after_ms", .ofNat afterMs.toNat)]

def toJson (f : Failure) : Json := .object [(f.kindName, f.fieldsJson)]

open Json Decoder in
def decoder : Decoder Failure :=
  oneOf [
    ("Unreachable", Case.record (unreachable <$> Record.required "reason" string)),
    ("Exception", Case.record
      (exception <$> Record.required "type_name" string <*> Record.required "message" string
        <*> Record.optional "payload" json)),
    ("Timeout", Case.record (timeout <$> Record.required "after_ms" uint64))]

end Failure

end Coordination
