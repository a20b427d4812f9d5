import Coordination.Board.Handle

/-!
The blackboard handles of one process: at most one for each name and transport, made when its board
has been attached for the first time.
-/

namespace Coordination

structure Directory (ω : Type) where
  clientId : String
  channels : List (Channel ω)
  lockTimeout : Option UInt64
  handles : List ((String × Transport) × Handle ω)

namespace Directory

variable {ω : Type}

def empty (clientId : String) : Directory ω := ⟨clientId, [], none, []⟩

/-- A channel takes the place of an earlier one of the same transport. -/
def withChannel (d : Directory ω) (channel : Channel ω) : Directory ω :=
  { d with channels := channel :: d.channels }

def channel? (d : Directory ω) (transport : Transport) : Option (Channel ω) :=
  d.channels.find? fun channel => channel.transport = transport

/-- Handle that has been made for this name and transport. -/
def instance? (d : Directory ω) (name : String) (transport : Transport) : Option (Handle ω) :=
  d.handles.lookup (name, transport)

def noTransport (name : String) (transport : Transport) : Fault :=
  .invalidConfiguration s!"no {transport.text} transport configured for blackboard '{name}'"

/-- Accesses a world from a directory, which is left alone. -/
def beyond {α : Type} (access : Access ω α) : Access (Directory ω × ω) α :=
  ExceptT.mk fun (d, world) =>
    (access.run.run world).map fun (result, after) => (result, d, after)

/-- Makes a handle and keeps it in its directory, once its board has been attached. -/
def makeHandle (name : String) (transport : Transport) (handle : Handle ω) :
    Access (Directory ω × ω) (Handle ω) := do
  beyond handle.attach
  modify fun (d, world) => ({ d with handles := ((name, transport), handle) :: d.handles }, world)
  return handle

/-- The handle for this name and transport, whose schema has to be the one given. -/
def ensureHandle (name : String) (transport : Transport) (schema : Schema) :
    Access (Directory ω × ω) (Handle ω) := do
  let (d, _) ← get
  match d.channel? transport, d.instance? name transport with
  | none, _ => throw (noTransport name transport)
  | some _, some handle =>
      if handle.schema = schema then return handle else throw (.schemaMismatch name)
  | some channel, none =>
      makeHandle name transport ⟨name, schema, channel, d.clientId, d.lockTimeout⟩

def getInstance (d : Directory ω) (name : String) (transport : Transport) (schema : Schema) :
    Access ω (Handle ω × Directory ω) :=
  ExceptT.mk fun world =>
    ((ensureHandle name transport schema).run.run (d, world)).map fun (result, d, after) =>
      ((fun handle => (handle, d)) <$> result, after)

end Directory

end Coordination
