import Coordination.Remote.Arrival

/-!
The serving side of connections. After the greetings a session answers every call with one reply, in
order; anything but a call ends it.
-/

namespace Coordination

/-- How a service names itself, and the task that runs a handler. -/
structure Service where
  nodeId : String
  taskName : String
  deriving DecidableEq

/-- A session stalls when a handler waits for somebody else. -/
inductive Stage where
  | greeting
  | serving
  | stalled
  | closed
  deriving DecidableEq, Repr

structure Session where
  stage : Stage
  unread : Bytes
  deriving DecidableEq

namespace Session

variable {σ : Type}

def fresh : Session := ⟨.greeting, []⟩

end Session

namespace Service

variable {σ : Type}

def say (m : Message) : Arrival := .data (Frame.write m)

def versionMismatch (version : UInt32) : String :=
  s!"Protocol version mismatch: client={version}, node={protocolVersion}"

/-- Answer to the first message of a connection. -/
def greet (service : Service) : Message → Stage × List Arrival
  | .hello version _ =>
      if version = protocolVersion then
        (.serving, [say (.welcome protocolVersion service.nodeId)])
      else (.closed, [say (.error service.nodeId (versionMismatch version)), .closed])
  | _ => (.closed, [.closed])

def crashMessage (service : Service) (text : String) : String :=
  "handler panicked: " ++ service.taskName ++ " panicked with message " ++ Text.quoted text

/-- What the caller is told; a crash is an exception of its own. -/
def outcomeOf (service : Service) : Ending → Outcome
  | .answered outcome => Channel.outcomeOf outcome
  | .crashed text => .error (.exception "Panic" (service.crashMessage text) none)

def replyTo (service : Service) (callId : UInt64) (ending : Ending) (millis : Nat) : Message :=
  .reply callId (service.outcomeOf ending) (.ofNat (millis * 1000000))

/-- Answer to a message after the greetings. -/
def serve [Servant σ] (service : Service) (m : Message) (d : Dispatcher σ) :
    Stage × List Arrival × Dispatcher σ :=
  match m with
  | .invoke callId target method args =>
      match d.dispatch target method args with
      | none => (.stalled, [], d)
      | some ⟨ending, after, millis⟩ =>
          (.serving, [.pause millis, say (service.replyTo callId ending millis)], after)
  | _ => (.closed, [.closed], d)

/-- Works off the messages that have arrived; `fuel` bounds their number. -/
def advance [Servant σ] (service : Service) (fuel : Nat) (session : Session)
    (d : Dispatcher σ) : List Arrival × Session × Dispatcher σ :=
  match fuel, session.stage with
  | 0, _ | _, .stalled | _, .closed => ([], session, d)
  | fuel + 1, stage =>
      match Frame.scan session.unread with
      | .partialLength | .partialBody => ([], session, d)
      | .flawed _ => ([.closed], ⟨.closed, []⟩, d)
      | .message m unread =>
          let (stage, said, d) := match stage with
            | .greeting =>
                let (stage, said) := service.greet m
                (stage, said, d)
            | _ => service.serve m d
          let (later, session, d) := service.advance fuel ⟨stage, unread⟩ d
          (said ++ later, session, d)

/-- Takes bytes from the caller. -/
def receive [Servant σ] (service : Service) (bytes : Bytes) (session : Session)
    (d : Dispatcher σ) : List Arrival × Session × Dispatcher σ :=
  let unread := session.unread ++ bytes
  service.advance (unread.length + 1) { session with unread } d

def pauses : List Arrival → Nat
  | [] => 0
  | .pause millis :: later => millis + pauses later
  | _ :: later => pauses later

/-- Works off one message, if its answer is due `waited` milliseconds after it came. -/
def due? [Servant σ] (service : Service) (waited : Nat) (session : Session) (d : Dispatcher σ) :
    Option (List Arrival × Session × Dispatcher σ) :=
  let (said, after, d) := service.advance 1 session d
  if after.stage = .stalled || waited < pauses said then none else some (said, after, d)

/-- Takes note that the caller has closed its side. -/
def finish (session : Session) : List Arrival × Session :=
  match session.stage with
  | .greeting | .serving => ([.closed], ⟨.closed, []⟩)
  | .stalled | .closed => ([], session)

end Service

/-- A service with its dispatcher and the sessions of its callers, numbered from 0. -/
structure Node (σ : Type) where
  service : Service
  dispatcher : Dispatcher σ
  sessions : List Session

namespace Node

variable {σ : Type}

def connect (n : Node σ) : Except String Nat × Node σ :=
  (.ok n.sessions.length, { n with sessions := n.sessions ++ [.fresh] })

def send [Servant σ] (connection : Nat) (bytes : Bytes) (n : Node σ) :
    Except String (List Arrival) × Node σ :=
  match n.sessions[connection]? with
  | none => (.error "Broken pipe (os error 32)", n)
  | some session =>
      let (said, session, dispatcher) := n.service.receive bytes session n.dispatcher
      (.ok said, { n with dispatcher, sessions := n.sessions.set connection session })

/-- The node as the only one that can be reached. -/
def peers [Servant σ] : Peers (Node σ) := ⟨connect, send⟩

end Node

end Coordination
