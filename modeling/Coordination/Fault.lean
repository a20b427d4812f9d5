import Coordination.Failure

/-!
What goes wrong in a coordination operation. A fault has a short stable name, a text, and a JSON form
that it can be recovered from after it has crossed a remote call.
-/

namespace Coordination

inductive Fault where
  | unregisteredCounter (board : String) (id : UInt16)
  | unknownCounterName (board name : String)
  | unknownLock (board name : String)
  | schemaMismatch (board : String)
  | unknownBoard (board : String)
  | unknownStatisticsType (name : String)
  | unknownMetric (typeName metric : String)
  | metricKindMismatch (typeName metric expected actual : String)
  | descriptorMismatch (typeName : String)
  | invalidConfiguration (reason : String)
  | lockNotHeld (board name owner : String)
  | lockNotAcquired (board name : String) (timeoutMs : UInt64)
  | remote (failure : Failure)
  | codec (reason : String)
  deriving DecidableEq, Inhabited

namespace Fault

def kindName : Fault → String
  | .unregisteredCounter .. => "UnregisteredCounter"
  | .unknownCounterName .. => "UnknownCounterName"
  | .unknownLock .. => "UnknownLock"
  | .schemaMismatch .. => "SchemaMismatch"
  | .unknownBoard .. => "UnknownBlackboard"
  | .unknownStatisticsType .. => "UnknownStatType"
  | .unknownMetric .. => "UnknownMetric"
  | .metricKindMismatch .. => "MetricKindMismatch"
  | .descriptorMismatch .. => "DescriptorMismatch"
  | .invalidConfiguration .. => "InvalidConfig"
  | .lockNotHeld .. => "LockNotHeld"
  | .lockNotAcquired .. => "LockNotAcquired"
  | .remote .. => "Remote"
  | .codec .. => "Codec"

def message : Fault → String
  | .unregisteredCounter board id => s!"counter id {id} is not registered in blackboard '{board}'"
  | .unknownCounterName board name => s!"counter '{name}' is not registered in blackboard '{board}'"
  | .unknownLock board name => s!"lock '{name}' is not declared in blackboard '{board}'"
  | .schemaMismatch board => s!"blackboard '{board}' is already defined with a different schema"
  | .unknownBoard board => s!"blackboard '{board}' has not been attached on this host"
  | .unknownStatisticsType name => s!"statistics type '{name}' is not registered"
  | .unknownMetric typeName metric =>
      s!"metric '{metric}' is not declared by statistics type '{typeName}'"
  | .metricKindMismatch typeName metric expected actual =>
      s!"metric '{metric}' of '{typeName}' is {actual}, expected {expected}"
  | .descriptorMismatch typeName =>
      s!"statistics type '{typeName}' is already registered with a different descriptor list"
  | .invalidConfiguration reason => "invalid configuration: " ++ reason
  | .lockNotHeld board name owner =>
      s!"lock '{name}' in blackboard '{board}' is not held by '{owner}'"
  | .lockNotAcquired board name timeoutMs =>
      s!"lock '{name}' in blackboard '{board}' not acquired within {timeoutMs}ms"
  | .remote failure => failure.message
  | .codec reason => "codec error: " ++ reason

/-- Whether the fault lies in how a run was set up; such a fault is never retried. -/
def isConfiguration : Fault → Bool
  | .lockNotHeld .. | .lockNotAcquired .. | .remote .. | .codec .. => false
  | _ => true

/-! JSON form. -/

def contentJson : Fault → Json
  | .unregisteredCounter board id =>
      .object [("board", .string board), ("id", .ofNat id.toNat)]
  | .unknownCounterName board name | .unknownLock board name =>
      .object [("board", .string board), ("name", .string name)]
  | .schemaMismatch board | .unknownBoard board => .object [("board", .string board)]
  | .unknownMetric typeName metric =>
      .object [("type_name", .string typeName), ("metric", .string metric)]
  | .metricKindMismatch typeName metric expected actual =>
      .object [("type_name", .string typeName), ("metric", .string metric),
        ("expected", .string expected), ("actual", .string actual)]
  | .lockNotHeld board name owner =>
      .object [("board", .string board), ("name", .string name), ("owner", .string owner)]
  | .lockNotAcquired board name timeoutMs =>
      .object [("board", .string board), ("name", .string name),
        ("timeout_ms", .ofNat timeoutMs.toNat)]
  | .unknownStatisticsType text | .descriptorMismatch text | .invalidConfiguration text
  | .codec text => .string text
  | .remote failure => failure.toJson

def toJson (f : Fault) : Json := .object [(f.kindName, f.contentJson)]

section Decoding

open Json Decoder

def textField (name : String) : Record String := Record.required name string

def decoder : Decoder Fault :=
  oneOf [
    ("UnregisteredCounter", Case.record
      (unregisteredCounter <$> textField "board" <*> Record.required "id" uint16)),
    ("UnknownCounterName", Case.record (unknownCounterName <$> textField "board" <*> textField "name")),
    ("UnknownLock", Case.record (unknownLock <$> textField "board" <*> textField "name")),
    ("SchemaMismatch", Case.record (schemaMismatch <$> textField "board")),
    ("UnknownBlackboard", Case.record (unknownBoard <$> textField "board")),
    ("UnknownStatType", Case.wrap fun v => unknownStatisticsType <$> string v),
    ("UnknownMetric", Case.record (unknownMetric <$> textField "type_name" <*> textField "metric")),
    ("MetricKindMismatch", Case.record
      (metricKindMismatch <$> textField "type_name" <*> textField "metric" <*> textField "expected"
        <*> textField "actual")),
    ("DescriptorMismatch", Case.wrap fun v => descriptorMismatch <$> string v),
    ("InvalidConfig", Case.wrap fun v => invalidConfiguration <$> string v),
    ("LockNotHeld", Case.record (lockNotHeld <$> textField "board" <*> textField "name" <*> textField "owner")),
    ("LockNotAcquired", Case.record
      (lockNotAcquired <$> textField "board" <*> textField "name" <*> Record.required "timeout_ms" uint64)),
    ("Remote", Case.wrap fun v => remote <$> Failure.decoder v),
    ("Codec", Case.wrap fun v => codec <$> string v)]

end Decoding

/-- The fault behind a failed call: the one its payload spells out, or else the failure itself. -/
def ofFailure (failure : Failure) : Fault :=
  match failure with
  | .exception _ _ (some payload) =>
      match decoder payload with
      | .ok fault => fault
      | .error _ => .remote failure
  | _ => .remote failure

def ofDecodeError (e : Json.DecodeError) : Fault := .codec e.message

end Fault

end Coordination
