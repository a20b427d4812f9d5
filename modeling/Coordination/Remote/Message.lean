import Coordination.Remote.Channel

/-! The messages between a caller and a node, with their JSON form and the text that shows one. -/

namespace Coordination

inductive Message where
  | hello (protocolVersion : UInt32) (clientId : String)
  | welcome (protocolVersion : UInt32) (nodeId : String)
  | invoke (callId : UInt64) (target : Target) (method : String) (args : List Json)
  | reply (callId : UInt64) (outcome : Outcome) (remoteElapsedNs : UInt64)
  | error (nodeId reason : String)
  deriving DecidableEq

/-- The version both sides of a connection have to speak. -/
def protocolVersion : UInt32 := 1

namespace Message

instance : Inhabited Message := ⟨.hello protocolVersion ""⟩

/-! JSON form. -/

def outcomeJson : Outcome → Json
  | .ok v => .object [("Ok", v)]
  | .error failure => .object [("Err", failure.toJson)]

def toJson : Message → Json
  | .hello version clientId =>
      .object [("Hello", .object
        [("protocol_version", .ofNat version.toNat), ("client_id", .string clientId)])]
  | .welcome version nodeId =>
      .object [("Welcome", .object
        [("protocol_version", .ofNat version.toNat), ("node_id", .string nodeId)])]
  | .invoke callId target method args =>
      .object [("Invoke", .object
        [("call_id", .ofNat callId.toNat), ("target", target.toJson), ("method", .string method),
          ("args", .array args)])]
  | .reply callId outcome elapsed =>
      .object [("Reply", .object
        [("call_id", .ofNat callId.toNat), ("outcome", outcomeJson outcome),
          ("remote_elapsed_ns", .ofNat elapsed.toNat)])]
  | .error nodeId reason =>
      .object [("Error", .object [("node_id", .string nodeId), ("error", .string reason)])]

section Decoding

open Json Decoder

def outcomeDecoder : Decoder Outcome :=
  oneOf [
    ("Ok", Case.wrap fun v => Except.ok <$> json v),
    ("Err", Case.wrap fun v => Except.error <$> Failure.decoder v)]

def decoder : Decoder Message :=
  oneOf [
    ("Hello", Case.wrap (Record.decode "a greeting"
      (hello <$> Record.required "protocol_version" uint32
        <*> Record.required "client_id" string))),
    ("Welcome", Case.wrap (Record.decode "a welcome"
      (welcome <$> Record.required "protocol_version" uint32
        <*> Record.required "node_id" string))),
    ("Invoke", Case.wrap (Record.decode "a call"
      (invoke <$> Record.required "call_id" uint64 <*> Record.required "target" Target.decoder
        <*> Record.required "method" string <*> Record.required "args" (list json)))),
    ("Reply", Case.wrap (Record.decode "a reply"
      (reply <$> Record.required "call_id" uint64 <*> Record.required "outcome" outcomeDecoder
        <*> Record.required "remote_elapsed_ns" uint64))),
    ("Error", Case.wrap (Record.decode "an error report"
      (error <$> Record.required "node_id" string <*> Record.required "error" string)))]

end Decoding

/-! A message as it is shown in the reason for a failure. -/

mutual
def shownJson : Json → String
  | .null => "Null"
  | .bool b => s!"Bool({b})"
  | .integer n => s!"Number({n})"
  | .real x => "Number(" ++ Json.realText x ++ ")"
  | .string s => "String(" ++ Text.quoted s ++ ")"
  | .array items => "Array [" ++ String.intercalate ", " (shownItems items) ++ "]"
  | .object members =>
      "Object \x7b" ++ String.intercalate ", " (shownMembers members) ++ "\x7d"

def shownItems : List Json → List String
  | [] => []
  | v :: rest => shownJson v :: shownItems rest

def shownMembers : List (String × Json) → List String
  | [] => []
  | (key, v) :: rest => (Text.quoted key ++ ": " ++ shownJson v) :: shownMembers rest
end

/-- A record by name, with the names of its fields. -/
def shownRecord (name : String) (fields : List (String × String)) : String :=
  name ++ " \x7b " ++ String.intercalate ", " (fields.map fun (field, v) => field ++ ": " ++ v) ++
    " \x7d"

def shownTarget : Target → String
  | .ofClass name => "Class(" ++ Text.quoted name ++ ")"
  | .object id => "Object(" ++ Text.quoted id ++ ")"

def shownPayload : Option Json → String
  | none => "None"
  | some v => "Some(" ++ shownJson v ++ ")"

def shownFailure : Failure → String
  | .unreachable reason => shownRecord "Unreachable" [("reason", Text.quoted reason)]
  | .exception typeName message payload =>
      shownRecord "Exception"
        [("type_name", Text.quoted typeName), ("message", Text.quoted message),
          ("payload", shownPayload payload)]
  | .timeout afterMs => shownRecord "Timeout" [("after_ms", toString afterMs)]

def shownOutcome : Outcome → String
  | .ok v => "Ok(" ++ shownJson v ++ ")"
  | .error failure => "Err(" ++ shownFailure failure ++ ")"

def shown : Message → String
  | .hello version clientId =>
      "Hello(" ++ shownRecord "HelloMessage"
        [("protocol_version", toString version), ("client_id", Text.quoted clientId)] ++ ")"
  | .welcome version nodeId =>
      "Welcome(" ++ shownRecord "WelcomeMessage"
        [("protocol_version", toString version), ("node_id", Text.quoted nodeId)] ++ ")"
  | .invoke callId target method args =>
      "Invoke(" ++ shownRecord "InvokeMessage"
        [("call_id", toString callId), ("target", shownTarget target),
          ("method", Text.quoted method),
          ("args", "[" ++ String.intercalate ", " (shownItems args) ++ "]")] ++ ")"
  | .reply callId outcome elapsed =>
      "Reply(" ++ shownRecord "ReplyMessage"
        [("call_id", toString callId), ("outcome", shownOutcome outcome),
          ("remote_elapsed_ns", toString elapsed)] ++ ")"
  | .error nodeId reason =>
      "Error(" ++ shownRecord "ErrorMessage"
        [("node_id", Text.quoted nodeId), ("error", Text.quoted reason)] ++ ")"

end Message

end Coordination
