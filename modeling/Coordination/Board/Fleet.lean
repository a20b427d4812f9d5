import Coordination.Board.Cluster
import Coordination.Remote.Message.Delivered

/-!
Several hosts, and the processes that work with blackboards on them. Clients connect and processes join
at any time. Every channel of a process leads to one of the hosts, from inside the host's own process or
by way of a client.
-/

namespace Coordination

/-- Clusters by their numbers. -/
abbrev Fleet := List Cluster

namespace Fleet

/-- A channel to the cluster with this number. A call to nobody never comes back. -/
def channelTo (place : Nat) (channel : Channel Cluster) : Channel Fleet where
  transport := channel.transport
  peer := channel.peer
  invoke timeout target method args fleet := do
    let cluster ← fleet[place]?
    let (outcome, after) ← channel.invoke timeout target method args cluster
    return (outcome, fleet.set place after)

def hosts (fleet : Fleet) : List Host := fleet.map Cluster.host

/-- The board of this name on the host with this number. -/
def board? (fleet : Fleet) (place : Nat) (name : String) : Option Board := do
  let host ← fleet.hosts[place]?
  host.boards.get? name

end Fleet

def Host.attachArguments (name : String) (schema : Schema) : List Json :=
  [.string name, schema.toJson]

/-- Whatever number a call is given, the call and its reply can be sent over a connection. -/
structure Host.Conveys (h : Host) (method : String) (args : List Json) : Prop where
  call : ∀ callId, (Message.invoke callId (.ofClass className) method args).Sendable
  reply : ∀ outcome after millis, h.perform method args = some ⟨.answered outcome, after, millis⟩ →
    ∀ callId,
      (Message.reply callId (Channel.outcomeOf outcome) (.ofNat (millis * 1000000))).Sendable

/-! Routes. -/

inductive Way where
  | inProcess
  | tcp (address : String) (client : Nat)
  deriving DecidableEq

namespace Way

def transport : Way → Transport
  | .inProcess => .inProcess
  | .tcp .. => .tcp

def channel : Way → Channel Cluster
  | .inProcess => Cluster.inProcess
  | .tcp address client => Cluster.tcp address client

def IsOpen (c : Cluster) : Way → Prop
  | .inProcess => True
  | .tcp _ client => client < c.clients.length

def Carries (h : Host) (method : String) (args : List Json) : Way → Prop
  | .inProcess => True
  | .tcp .. => h.Conveys method args

end Way

structure Route where
  place : Nat
  way : Way
  deriving DecidableEq

namespace Route

def channel (r : Route) : Channel Fleet := Fleet.channelTo r.place r.way.channel

def IsOpen (r : Route) (fleet : Fleet) : Prop :=
  ∃ cluster, fleet[r.place]? = some cluster ∧ r.way.IsOpen cluster

def Carries (r : Route) (fleet : Fleet) (method : String) (args : List Json) : Prop :=
  ∀ host, fleet.hosts[r.place]? = some host → r.way.Carries host method args

end Route

/-! Processes. -/

/-- A process with its blackboard handles. Of the routes of one transport the first is taken. -/
structure Process where
  clientId : String
  lockTimeout : Option UInt64
  routes : List Route
  handles : List ((String × Transport) × Handle Fleet)

namespace Process

def directory (p : Process) : Directory Fleet :=
  ⟨p.clientId, p.routes.map Route.channel, p.lockTimeout, p.handles⟩

def route? (p : Process) (transport : Transport) : Option Route :=
  p.routes.find? fun route => route.way.transport = transport

end Process

structure Federation where
  fleet : Fleet
  processes : List Process

namespace Federation

inductive Event where
  /-- A client connects to the node with this number. -/
  | connect (place : Nat) (address clientId : String) (poolSize : Nat)
  | join (clientId : String) (lockTimeout : Option UInt64) (routes : List Route)
  /-- The process with this number asks for a handle. -/
  | getInstance (process : Nat) (name : String) (transport : Transport) (schema : Schema)
  /-- Anybody's call to a host, such as the handles make. -/
  | call (route : Route) (method : String) (args : List Json)

/-- What a process is told that asks for a handle. -/
abbrev Finding := Option (Except Fault (Handle Fleet))

def start (services : List Service) : Federation :=
  ⟨services.map fun service => Cluster.start service true, []⟩

def getInstance (s : Federation) (process : Nat) (p : Process) (name : String)
    (transport : Transport) (schema : Schema) : Option (Finding × Federation) :=
  ((Directory.ensureHandle name transport schema).run.run (p.directory, s.fleet)).map
    fun (result, d, fleet) =>
      (some result, ⟨fleet, s.processes.set process { p with handles := d.handles }⟩)

/-- Nothing comes of a call that does not come back. -/
def step (s : Federation) : Event → Option (Finding × Federation)
  | .connect place address clientId poolSize => do
      let cluster ← s.fleet[place]?
      let (_, after) ← cluster.connect address clientId poolSize
      return (none, { s with fleet := s.fleet.set place after })
  | .join clientId lockTimeout routes =>
      some (none, { s with processes := s.processes ++ [⟨clientId, lockTimeout, routes, []⟩] })
  | .getInstance process name transport schema => do
      let p ← s.processes[process]?
      s.getInstance process p name transport schema
  | .call route method args => do
      let (_, fleet) ←
        route.channel.invoke none (.ofClass Host.className) method args s.fleet
      return (none, { s with fleet })

/-- Routes are open, and what is sent over connections can be sent. -/
def Allows (s : Federation) : Event → Prop
  | .connect place _ clientId _ =>
      (Message.hello protocolVersion clientId).Sendable ∧
        ∀ cluster, s.fleet[place]? = some cluster →
          (Message.welcome protocolVersion cluster.node.service.nodeId).Sendable
  | .join _ _ routes => ∀ route ∈ routes, route.IsOpen s.fleet
  | .getInstance process name transport schema =>
      ∀ p route, s.processes[process]? = some p → p.route? transport = some route →
        route.Carries s.fleet Host.Method.attach.name (Host.attachArguments name schema)
  | .call route method args => route.IsOpen s.fleet ∧ route.Carries s.fleet method args

/-- What can come about from the start, by events that each had their findings. -/
inductive Reached (services : List Service) : List (Event × Finding) → Federation → Prop where
  | start : Reached services [] (start services)
  | step {log : List (Event × Finding)} {s next : Federation} {event : Event} {finding : Finding}
      (reached : Reached services log s) (allowed : s.Allows event)
      (stepped : s.step event = some (finding, next)) :
      Reached services (log ++ [(event, finding)]) next

end Federation

end Coordination
