import Coordination.MessagePack.Item
import Coordination.MessagePack.Writer
import Coordination.Remote.Message

/-!
Messages as MessagePack: records are arrays of their fields, and a choice is a map with one entry.
Reading also takes records as maps, and variants and fields by number.
-/

namespace Coordination.Message

/-! Writing. -/

def packedTarget : Target → Json := Target.toJson

def packedFailure : Failure → Json
  | .unreachable reason => .object [("Unreachable", .array [.string reason])]
  | .exception typeName message payload =>
      .object [("Exception", .array [.string typeName, .string message, payload.getD .null])]
  | .timeout afterMs => .object [("Timeout", .array [.ofNat afterMs.toNat])]

def packedOutcome : Outcome → Json
  | .ok v => .object [("Ok", v)]
  | .error failure => .object [("Err", packedFailure failure)]

def packed : Message → Json
  | .hello version clientId =>
      .object [("Hello", .array [.ofNat version.toNat, .string clientId])]
  | .welcome version nodeId =>
      .object [("Welcome", .array [.ofNat version.toNat, .string nodeId])]
  | .invoke callId target method args =>
      .object [("Invoke", .array
        [.ofNat callId.toNat, packedTarget target, .string method, .array args])]
  | .reply callId outcome elapsed =>
      .object [("Reply", .array
        [.ofNat callId.toNat, packedOutcome outcome, .ofNat elapsed.toNat])]
  | .error nodeId reason => .object [("Error", .array [.string nodeId, .string reason])]

def bytes (m : Message) : Bytes := MessagePack.bytes m.packed

/-! Reading. -/

open MessagePack

/-- How deeply arrays and maps may stand inside one another. -/
def nestingBudget : Nat := 1024

def uint32? (item : Item) : Option UInt32 := (item.natural? UInt32.size).map .ofNat

def uint64? (item : Item) : Option UInt64 := (item.natural? UInt64.size).map .ofNat

def target? (item : Item) : Option Target :=
  match item.variant? ["Class", "Object"] with
  | some (0, content) => content.text?.map .ofClass
  | some (_, content) => content.text?.map .object
  | none => none

def payload? (budget : Nat) : Option Item → Option (Option Json)
  | none | some .nil => some none
  | some item => (item.json? budget).map some

def failure? (budget : Nat) (item : Item) : Option Failure :=
  match item.variant? ["Unreachable", "Exception", "Timeout"] with
  | some (0, content) =>
      match content.fields? budget ["reason"] with
      | some ([some reason], _) => reason.text?.map .unreachable
      | _ => none
  | some (1, content) =>
      match content.fields? budget ["type_name", "message", "payload"] with
      | some ([some typeName, some message, payload], budget) => do
          return .exception (← typeName.text?) (← message.text?) (← payload? budget payload)
      | _ => none
  | some (_, content) =>
      match content.fields? budget ["after_ms"] with
      | some ([some afterMs], _) => (uint64? afterMs).map .timeout
      | _ => none
  | none => none

def outcome? (budget : Nat) (item : Item) : Option Outcome :=
  match item.variant? ["Ok", "Err"] with
  | some (0, content) => (content.json? budget).map .ok
  | some (_, content) => (failure? budget content).map .error
  | none => none

def args? (budget : Nat) : Item → Option (List Json)
  | .array items =>
      match Item.descend? budget with
      | some budget => Item.jsonItems? budget items
      | none => none
  | _ => none

def hello? (budget : Nat) (content : Item) : Option Message :=
  match content.fields? budget ["protocol_version", "client_id"] with
  | some ([some version, some clientId], _) => do
      return .hello (← uint32? version) (← clientId.text?)
  | _ => none

def welcome? (budget : Nat) (content : Item) : Option Message :=
  match content.fields? budget ["protocol_version", "node_id"] with
  | some ([some version, some nodeId], _) => do
      return .welcome (← uint32? version) (← nodeId.text?)
  | _ => none

def invoke? (budget : Nat) (content : Item) : Option Message :=
  match content.fields? budget ["call_id", "target", "method", "args"] with
  | some ([some callId, some target, some method, some args], budget) => do
      return .invoke (← uint64? callId) (← target? target) (← method.text?) (← args? budget args)
  | _ => none

def reply? (budget : Nat) (content : Item) : Option Message :=
  match content.fields? budget ["call_id", "outcome", "remote_elapsed_ns"] with
  | some ([some callId, some outcome, some elapsed], budget) => do
      return .reply (← uint64? callId) (← outcome? budget outcome) (← uint64? elapsed)
  | _ => none

def error? (budget : Nat) (content : Item) : Option Message :=
  match content.fields? budget ["node_id", "error"] with
  | some ([some nodeId, some reason], _) => do
      return .error (← nodeId.text?) (← reason.text?)
  | _ => none

def ofItem? (item : Item) : Option Message :=
  match item.variant? ["Hello", "Welcome", "Invoke", "Reply", "Error"] with
  | some (0, content) => hello? nestingBudget content
  | some (1, content) => welcome? nestingBudget content
  | some (2, content) => invoke? nestingBudget content
  | some (3, content) => reply? nestingBudget content
  | some (_, content) => error? nestingBudget content
  | none => none

/-- The message that a byte string starts with; what follows it is left aside. -/
def ofBytes? (bytes : Bytes) : Option Message := do
  let (item, _) ← Item.read bytes
  ofItem? item

end Coordination.Message
