import Coordination.Board.Directory
import Coordination.Remote.Client
import Coordination.Remote.Service

/-! A node that hosts blackboards, and the processes that work with them in its own process or over
connections. -/

namespace Coordination

structure Cluster where
  node : Node Host
  clients : List Client

namespace Cluster

/-- A node with an empty host, or with nothing to call. -/
def start (service : Service) (hosting : Bool) : Cluster :=
  ⟨⟨service, if hosting then Host.install .empty else .empty, []⟩, []⟩

def host (c : Cluster) : Host := (c.node.dispatcher.classes.get? Host.className).getD .empty

/-- The same cluster with this host in it. -/
def withHost (c : Cluster) (host : Host) : Cluster :=
  { c with node.dispatcher := c.node.dispatcher.registerClass Host.className host }

def inProcess : Channel Cluster :=
  Channel.inProcess.within (fun c => c.node.dispatcher) fun dispatcher c =>
    { c with node := { c.node with dispatcher } }

def client (c : Cluster) (index : Nat) : Client := c.clients[index]?.getD (.fresh "" "" 1)

/-- The channel of the client with this number. -/
def tcp (address : String) (index : Nat) : Channel Cluster :=
  (Client.channel Node.peers address).within (fun c => (c.client index, c.node))
    fun (client, node) c => ⟨node, c.clients.set index client⟩

/-- Connects one more client. -/
def connect (c : Cluster) (address clientId : String) (poolSize : Nat) :
    Option (Except String (Channel Cluster) × Cluster) :=
  (Client.connect Node.peers address clientId poolSize c.node).map fun (result, node) =>
    match result with
    | .error reason => (.error reason, { c with node })
    | .ok client => (.ok (tcp address c.clients.length), ⟨node, c.clients ++ [client]⟩)

/-- Gives a process channels of these kinds, in order, up to the first one that fails. -/
def equip (address : String) (poolSize : Nat) (d : Directory Cluster) :
    List Transport → Cluster → Option (Except String (Directory Cluster) × Cluster)
  | [], c => some (.ok d, c)
  | .inProcess :: rest, c => equip address poolSize (d.withChannel inProcess) rest c
  | .tcp :: rest, c => do
      match ← c.connect address d.clientId poolSize with
      | (.error reason, c) => return (.error reason, c)
      | (.ok channel, c) => equip address poolSize (d.withChannel channel) rest c

end Cluster

/-- Why a directory could not be connected. -/
def Directory.notConnected (address reason : String) : String :=
  s!"Failed to connect blackboard registry to {address}: " ++ reason

end Coordination
