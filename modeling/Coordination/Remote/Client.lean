import Coordination.Remote.Arrival

/-!
The calling side of the connections to one node. A connection carries one call at a time and goes
back to the pool only after a complete exchange, so that a late reply is never taken for the reply to
another call.
-/

namespace Coordination

structure Connection where
  number : Nat
  inbox : List Arrival
  deriving DecidableEq

structure Client where
  address : String
  clientId : String
  poolSize : Nat
  nodeId : Option String
  pool : List Connection
  nextCallId : UInt64
  deriving DecidableEq

namespace Client

variable {ω : Type}

def fresh (address clientId : String) (poolSize : Nat) : Client :=
  ⟨address, clientId, max poolSize 1, none, [], 1⟩

def release (c : Client) (connection : Connection) : Client :=
  if c.pool.length < c.poolSize then { c with pool := connection :: c.pool } else c

/-! Opening a connection. -/

inductive Refused where
  | noConnection (address reason : String)
  | notSent (reason : String)
  | notRead (flaw : Frame.Flaw)
  | otherVersion (version : UInt32)
  | refused (nodeId reason : String)
  | unexpected (m : Message)

/-- Reason with its causes, outermost first. -/
def Refused.text : Refused → String
  | .noConnection address reason => s!"Failed to connect to {address}: " ++ reason
  | .notSent reason => "Failed to write message: " ++ reason
  | .notRead flaw => flaw.withCause
  | .otherVersion version =>
      s!"Protocol version mismatch: client={protocolVersion}, node={version}"
  | .refused nodeId reason => s!"Node {nodeId} refused connection: {reason}"
  | .unexpected m => "Expected WELCOME, got " ++ m.shown

/-- Sends a message and waits for the next one. -/
def exchange (peers : Peers ω) (connection : Connection) (m : Message) (world : ω) :
    Except String Reading × ω :=
  match peers.send connection.number (Frame.write m) world with
  | (.error reason, world) => (.error reason, world)
  | (.ok arrivals, world) => (.ok (Reading.next (connection.inbox ++ arrivals)), world)

/-- Judges the answer to a greeting. -/
def welcomed : Message → Except Refused String
  | .welcome version nodeId =>
      if version = protocolVersion then .ok nodeId else .error (.otherVersion version)
  | .error nodeId reason => .error (.refused nodeId reason)
  | m => .error (.unexpected m)

/-- What comes of a greeting; nothing where the node stays silent. -/
def greeted (c : Client) (number : Nat) :
    Except String Reading → Option (Except Refused Connection) × Client
  | .error reason => (some (.error (.notSent reason)), c)
  | .ok .silent => (none, c)
  | .ok (.flawed flaw _) => (some (.error (.notRead flaw)), c)
  | .ok (.message m later _) =>
      match welcomed m with
      | .error refused => (some (.error refused), c)
      | .ok nodeId => (some (.ok ⟨number, later⟩), { c with nodeId := some nodeId })

/-- Opens a connection and exchanges greetings; the node tells its name. -/
def openConnection (peers : Peers ω) (c : Client) (world : ω) :
    Option (Except Refused Connection) × Client × ω :=
  match peers.connect world with
  | (.error reason, world) => (some (.error (.noConnection c.address reason)), c, world)
  | (.ok number, world) =>
      let (result, world) := exchange peers ⟨number, []⟩ (.hello protocolVersion c.clientId) world
      let (opened, c) := c.greeted number result
      (opened, c, world)

/-- A client with one connection in its pool. -/
def connect (peers : Peers ω) (address clientId : String) (poolSize : Nat) (world : ω) :
    Option (Except String Client × ω) :=
  let (opened, c, world) := openConnection peers (fresh address clientId poolSize) world
  opened.map fun
    | .error refused => (.error (s!"Failed to connect to {address}: " ++ refused.text), world)
    | .ok connection => (.ok (c.release connection), world)

/-! Calls. -/

def unreachable (reason : String) : Outcome := .error (.unreachable reason)

/-- What an answer means for call `callId`. -/
def judge (callId : UInt64) : Message → Outcome
  | .reply id outcome _ =>
      if id = callId then outcome
      else unreachable s!"reply for call {id} while waiting for {callId}"
  | .error nodeId reason => unreachable s!"node {nodeId} reported: {reason}"
  | m => unreachable ("expected REPLY, got " ++ m.shown)

/-- Whether the connection can carry another call after this outcome. -/
def reusable : Outcome → Bool
  | .error failure => !failure.isUnreachable
  | .ok _ => true

def inTime (timeout : Option UInt64) (millis : Nat) : Bool :=
  match timeout with
  | none => true
  | some limit => decide (millis < limit.toNat)

/-- Outcome of one exchange, with the connection where it can be used again. -/
def settle (timeout : Option UInt64) (callId : UInt64) (number : Nat) :
    Except String Reading → Option (Outcome × Option Connection)
  | .error reason => some (unreachable ("Failed to write message: " ++ reason), none)
  | .ok .silent => timeout.map fun limit => (.error (.timeout limit), none)
  | .ok (.flawed flaw millis) =>
      if inTime timeout millis then some (unreachable flaw.withCause, none)
      else timeout.map fun limit => (.error (.timeout limit), none)
  | .ok (.message m later millis) =>
      if inTime timeout millis then
        let outcome := judge callId m
        some (outcome, if reusable outcome then some ⟨number, later⟩ else none)
      else timeout.map fun limit => (.error (.timeout limit), none)

/-- Makes one call over an open connection. -/
def callOver (peers : Peers ω) (timeout : Option UInt64) (callId : UInt64) (m : Message)
    (connection : Connection) (c : Client) (world : ω) : Option Outcome × Client × ω :=
  let (result, world) := exchange peers connection m world
  match settle timeout callId connection.number result with
  | none => (none, c, world)
  | some (outcome, none) => (some outcome, c, world)
  | some (outcome, some connection) => (some outcome, c.release connection, world)

/-- Takes a connection out of the pool, or opens one. -/
def checkOut (peers : Peers ω) (c : Client) (world : ω) :
    Option (Except Refused Connection) × Client × ω :=
  match c.pool with
  | connection :: pool => (some (.ok connection), { c with pool }, world)
  | [] => openConnection peers c world

/-- Makes one call. It has no outcome where it never comes back. -/
def call (peers : Peers ω) (timeout : Option UInt64) (target : Target) (method : String)
    (args : List Json) (c : Client) (world : ω) : Option Outcome × Client × ω :=
  let callId := c.nextCallId
  match checkOut peers { c with nextCallId := callId + 1 } world with
  | (none, c, world) => (none, c, world)
  | (some (.error refused), c, world) => (some (unreachable refused.text), c, world)
  | (some (.ok connection), c, world) =>
      callOver peers timeout callId (.invoke callId target method args) connection c world

/-- The client as a channel of the world that it stands in. -/
def channel (peers : Peers ω) (peer : String) : Channel (Client × ω) where
  transport := .tcp
  peer := peer
  invoke timeout target method args world :=
    let (outcome, world) := call peers timeout target method args world.1 world.2
    outcome.map (·, world)

end Client

end Coordination
