import Coordination.Board.Cluster
import Coordination.Board.Operation

/-!
Parties that work with the boards of one host at the same time. Each request can be answered by the
host itself, or by way of the handles that the parties have in their processes.
-/

namespace Coordination

/-- Somebody who takes part, and how long to wait for a lock where no time is given. -/
structure Party where
  clientId : String
  lockTimeout : Option UInt64
  deriving DecidableEq

inductive Request where
  /-- The party with this number asks for its handle of a board. -/
  | attach (party : Nat) (name : String) (schema : Schema)
  | operate (party : Nat) (name : String) (operation : Operation)
  /-- A call of any form, by somebody who is not one of the parties. -/
  | call (method : String) (args : List Json)
  deriving DecidableEq

/-- What a request comes to, if it comes to anything. -/
abbrev Reply := Option (Except Fault Answer)

/-! Answered by the host. -/

structure Gathering where
  parties : List Party
  host : Host
  /-- Numbers of parties with the boards that they have attached. -/
  attached : List (Nat × String)

namespace Gathering

def start (host : Host) (parties : List Party) : Gathering := ⟨parties, host, []⟩

def attach (g : Gathering) (party : Nat) (name : String) (schema : Schema) : Reply × Gathering :=
  match g.host.attach name schema with
  | .ok host => (some (.ok .done), { g with host, attached := (party, name) :: g.attached })
  | .error fault => (some (.error fault), g)

def operate (g : Gathering) (p : Party) (name : String) (operation : Operation) :
    Reply × Gathering :=
  match g.host.operate name p.clientId p.lockTimeout operation with
  | some (answer, host) => (some answer, { g with host })
  | none => (none, g)

def step (g : Gathering) : Request → Reply × Gathering
  | .attach party name schema =>
      match g.parties[party]? with
      | some _ => g.attach party name schema
      | none => (none, g)
  | .operate party name operation =>
      match g.parties[party]? with
      | some p => if (party, name) ∈ g.attached then g.operate p name operation else (none, g)
      | none => (none, g)
  | .call method args =>
      match g.host.perform method args with
      | some ⟨.answered _, host, _⟩ => (none, { g with host })
      | _ => (none, g)

def run (g : Gathering) : List Request → List Reply × Gathering
  | [] => ([], g)
  | request :: rest =>
      let (reply, next) := g.step request
      let (replies, final) := next.run rest
      (reply :: replies, final)

end Gathering

/-!
Answered through handles, which all call within the process; a call over a connection comes to the same
where `Client.call_as_in_process` applies.
-/

structure RemoteGathering where
  cluster : Cluster
  directories : List (Directory Cluster)

namespace RemoteGathering

def directory (p : Party) : Directory Cluster :=
  ⟨p.clientId, [Cluster.inProcess], p.lockTimeout, []⟩

def start (c : Cluster) (host : Host) (parties : List Party) : RemoteGathering :=
  ⟨c.withHost host, parties.map directory⟩

def attach (g : RemoteGathering) (party : Nat) (d : Directory Cluster) (name : String)
    (schema : Schema) : Reply × RemoteGathering :=
  match (Directory.ensureHandle name .inProcess schema).run.run (d, g.cluster) with
  | some (result, d, cluster) =>
      (some ((fun _ => .done) <$> result), ⟨cluster, g.directories.set party d⟩)
  | none => (none, g)

def operate (g : RemoteGathering) (handle : Handle Cluster) (operation : Operation) :
    Reply × RemoteGathering :=
  match (operation.perform handle).run.run g.cluster with
  | some (answer, cluster) => (some answer, { g with cluster })
  | none => (none, g)

def step (g : RemoteGathering) : Request → Reply × RemoteGathering
  | .attach party name schema =>
      match g.directories[party]? with
      | some d => g.attach party d name schema
      | none => (none, g)
  | .operate party name operation =>
      match g.directories[party]?.bind (·.instance? name .inProcess) with
      | some handle => g.operate handle operation
      | none => (none, g)
  | .call method args =>
      match Cluster.inProcess.invoke none (.ofClass Host.className) method args g.cluster with
      | some (_, cluster) => (none, { g with cluster })
      | none => (none, g)

def run (g : RemoteGathering) : List Request → List Reply × RemoteGathering
  | [] => ([], g)
  | request :: rest =>
      let (reply, next) := g.step request
      let (replies, final) := next.run rest
      (reply :: replies, final)

end RemoteGathering

end Coordination
