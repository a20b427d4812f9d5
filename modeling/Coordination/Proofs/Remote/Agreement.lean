import Coordination.Board.Host
import Coordination.Proofs.Remote.Client
import Coordination.Proofs.Remote.Delivery
import Coordination.Proofs.Remote.Service

/-!
A call over a connection comes to what the same call comes to inside the process. Between calls nothing
is left unread on a connection of the pool, at either end, and no two connections of the pool share a
session; this is what every call finds and leaves.
-/

namespace Coordination

/-! What the two ends hear of each other. -/

namespace Reading

def Quiet (inbox : List Arrival) : Prop := ∀ arrival ∈ inbox, arrival = .data []

theorem quiet_nil : Quiet [] := List.forall_mem_nil _

theorem next_of_quiet {inbox : List Arrival} (quiet : Quiet inbox) (arrivals : List Arrival) :
    next (inbox ++ arrivals) = next arrivals := by
  induction inbox with
  | nil => rfl
  | cons arrival inbox induction =>
      obtain ⟨empty, quietLater⟩ := List.forall_mem_cons.mp quiet
      subst empty
      exact induction quietLater

theorem next_say {m : Message} (sendable : m.Sendable) :
    next [Service.say m] = .message m.delivered [.data []] 0 := by
  have scanned := Frame.scan_write sendable []
  rw [List.append_nil] at scanned
  change start ([] ++ Frame.write m) [] = _
  rw [List.nil_append, start, scanned]

theorem next_pause (millis : Nat) (arrivals : List Arrival) :
    next (.pause millis :: arrivals) = (next arrivals).after millis := rfl

end Reading

variable {σ : Type} [Servant σ]

namespace Service

variable {service : Service} {stage : Stage}

theorem advance_nothing (fuel : Nat) (stage : Stage) (d : Dispatcher σ) :
    service.advance fuel ⟨stage, []⟩ d = ([], ⟨stage, []⟩, d) := by
  cases fuel with
  | zero => rfl
  | succ fuel => cases stage <;> rfl

theorem receive_write {m : Message} (sendable : m.Sendable) (isOpen : stage.Open)
    (d : Dispatcher σ) :
    service.receive (Frame.write m) ⟨stage, []⟩ d =
      let (after, said, d) := service.react m.delivered d stage
      (said, ⟨after, []⟩, d) := by
  have scanned := Frame.scan_write sendable []
  rw [List.append_nil] at scanned
  rw [receive]
  dsimp only
  rw [List.nil_append, advance_of_open isOpen, scanned]
  simp only [advance_nothing, List.append_nil]

end Service

namespace Node

theorem send_write {m : Message} {n : Node σ} {number : Nat} {stage : Stage}
    (session : n.sessions[number]? = some ⟨stage, []⟩) (isOpen : stage.Open)
    (sendable : m.Sendable) :
    n.send number (Frame.write m) =
      let (after, said, dispatcher) := n.service.react m.delivered n.dispatcher stage
      (.ok said, { n with dispatcher, sessions := n.sessions.set number ⟨after, []⟩ }) := by
  rw [send, session]
  dsimp only
  rw [Service.receive_write sendable isOpen]

end Node

namespace Client

/-! Clients in touch with a node. -/

section InTouch

variable {σ : Type} {c : Client} {n : Node σ}

/-- Nothing is left unread on the connection, and the node serves it. -/
structure Ready (connection : Connection) (n : Node σ) : Prop where
  quiet : Reading.Quiet connection.inbox
  served : n.sessions[connection.number]? = some ⟨.serving, []⟩

structure InTouch (c : Client) (n : Node σ) : Prop where
  hello : (Message.hello protocolVersion c.clientId).Sendable
  welcome : (Message.welcome protocolVersion n.service.nodeId).Sendable
  distinct : (c.pool.map (·.number)).Nodup
  ready : ∀ connection ∈ c.pool, Ready connection n

theorem InTouch.of_same_sessions {c' : Client} {n' : Node σ} (inTouch : InTouch c n)
    (clientId : c'.clientId = c.clientId) (pool : c'.pool.Sublist c.pool)
    (service : n'.service = n.service)
    (sessions : ∀ connection ∈ c'.pool,
      n'.sessions[connection.number]? = n.sessions[connection.number]?) : InTouch c' n' := by
  refine ⟨clientId ▸ inTouch.hello, service ▸ inTouch.welcome,
    inTouch.distinct.sublist (pool.map _), ?_⟩
  intro connection pooled
  obtain ⟨quiet, served⟩ := inTouch.ready connection (pool.subset pooled)
  exact ⟨quiet, by rw [sessions connection pooled, served]⟩

theorem InTouch.number_lt {connection : Connection} (inTouch : InTouch c n)
    (pooled : connection ∈ c.pool) : connection.number < n.sessions.length :=
  (List.getElem?_eq_some_iff.mp (inTouch.ready connection pooled).served).1

theorem InTouch.release {connection : Connection} (inTouch : InTouch c n)
    (ready : Ready connection n) (apart : connection.number ∉ c.pool.map (·.number)) :
    InTouch (c.release connection) n := by
  unfold Client.release
  split
  · exact ⟨inTouch.hello, inTouch.welcome, List.nodup_cons.mpr ⟨apart, inTouch.distinct⟩,
      List.forall_mem_cons.mpr ⟨ready, inTouch.ready⟩⟩
  · exact inTouch

/-- Whatever a call does to its own session, the connections left in the pool do not feel it. -/
theorem InTouch.set_session {number : Nat} (inTouch : InTouch c n)
    (apart : number ∉ c.pool.map (·.number)) (session : Session) (dispatcher : Dispatcher σ) :
    InTouch c { n with dispatcher, sessions := n.sessions.set number session } := by
  refine inTouch.of_same_sessions rfl (.refl _) rfl ?_
  intro connection pooled
  refine List.getElem?_set_ne ?_
  rintro rfl
  exact apart (List.mem_map_of_mem pooled)

end InTouch

variable {c : Client} {n : Node σ}

/-! Exchanges with a node. -/

theorem exchange_node (connection : Connection) {m : Message} {stage after : Stage}
    {said : List Arrival} {dispatcher : Dispatcher σ} (quiet : Reading.Quiet connection.inbox)
    (session : n.sessions[connection.number]? = some ⟨stage, []⟩) (isOpen : stage.Open)
    (sendable : m.Sendable)
    (reacts : n.service.react m.delivered n.dispatcher stage = (after, said, dispatcher)) :
    exchange Node.peers connection m n =
      (.ok (.next said),
        { n with dispatcher, sessions := n.sessions.set connection.number ⟨after, []⟩ }) := by
  have sent := Node.send_write session isOpen sendable
  rw [reacts] at sent
  simp only [exchange, Node.peers, sent, Reading.next_of_quiet quiet]

theorem openConnection_node (hello : (Message.hello protocolVersion c.clientId).Sendable)
    (welcome : (Message.welcome protocolVersion n.service.nodeId).Sendable) :
    openConnection Node.peers c n =
      (some (.ok ⟨n.sessions.length, [.data []]⟩), { c with nodeId := some n.service.nodeId },
        { n with sessions := n.sessions ++ [⟨.serving, []⟩] }) := by
  have dialed : Node.peers.connect n =
      (.ok n.sessions.length, { n with sessions := n.sessions ++ [.fresh] }) := rfl
  -- A variable, for what it stands for would be rewritten along with the session.
  generalize ringing : ({ n with sessions := n.sessions ++ [.fresh] } : Node σ) = n' at dialed
  have session : n'.sessions[n.sessions.length]? = some ⟨.greeting, []⟩ := by
    subst ringing
    exact List.getElem?_concat_length
  have reacts : n'.service.react (.hello protocolVersion c.clientId) n'.dispatcher .greeting =
      (.serving, [Service.say (.welcome protocolVersion n.service.nodeId)], n.dispatcher) := by
    subst ringing
    simp [Service.react, Service.greet]
  have exchanged :=
    exchange_node ⟨n.sessions.length, []⟩ Reading.quiet_nil session (.inl rfl) hello reacts
  have grown : n'.sessions.set n.sessions.length ⟨.serving, []⟩ =
      n.sessions ++ [⟨.serving, []⟩] := by
    subst ringing
    simp
  rw [Reading.next_say welcome, grown] at exchanged
  rw [openConnection, dialed]
  simp only [exchanged, Message.delivered, greeted, welcomed, if_true]
  subst ringing
  rfl

/-- A connection can be had, from the pool or anew, with no other of its number in the pool. -/
theorem InTouch.checkOut (inTouch : InTouch c n) :
    ∃ connection c' n', checkOut Node.peers c n = (some (.ok connection), c', n') ∧
      Ready connection n' ∧ connection.number ∉ c'.pool.map (·.number) ∧ InTouch c' n' ∧
      n'.dispatcher = n.dispatcher ∧ n'.service = n.service := by
  cases pool : c.pool with
  | nil =>
      have inTouchAfter : InTouch { c with nodeId := some n.service.nodeId }
          { n with sessions := n.sessions ++ [⟨.serving, []⟩] } := by
        refine inTouch.of_same_sessions rfl (.refl _) rfl ?_
        intro connection pooled
        rw [pool] at pooled
        cases pooled
      have opened : Client.checkOut Node.peers c n = openConnection Node.peers c n := by
        rw [Client.checkOut, pool]
      refine ⟨⟨n.sessions.length, [.data []]⟩, _, _,
        opened.trans (openConnection_node inTouch.hello inTouch.welcome), ⟨?_, ?_⟩, ?_, inTouchAfter,
        rfl, rfl⟩
      · exact List.forall_mem_singleton.mpr rfl
      · exact List.getElem?_concat_length
      · simp [pool]
  | cons connection pool' =>
      have rest : InTouch { c with pool := pool' } n :=
        inTouch.of_same_sessions rfl (by rw [pool]; exact .cons _ (.refl _)) rfl fun _ _ => rfl
      have distinct := inTouch.distinct
      rw [pool, List.map_cons, List.nodup_cons] at distinct
      refine ⟨connection, { c with pool := pool' }, n, ?_, ?_, distinct.1, rest, rfl, rfl⟩
      · rw [Client.checkOut, pool]
      · exact inTouch.ready connection (by rw [pool]; exact List.mem_cons_self)

/-! Calls. -/

theorem isAnswer_delivered (outcome : Except Refusal Json) :
    IsAnswer (Outcome.delivered (Channel.outcomeOf outcome)) := by
  cases outcome with
  | ok v => exact .value v
  | error refusal =>
      change IsAnswer (.error (Failure.delivered refusal.failure))
      rw [Refusal.failure, Message.delivered_exception]
      exact .exception _ _ _

/-- The call does not crash its handler, and what is said because of it can be sent. -/
structure Carries (c : Client) (n : Node σ) (target : Target) (method : String)
    (args : List Json) : Prop where
  invoke : (Message.invoke c.nextCallId target method args).Sendable
  answered : ∀ ending after millis,
    n.dispatcher.dispatch target method args = some ⟨ending, after, millis⟩ →
      (∃ outcome, ending = .answered outcome) ∧
        (n.service.replyTo c.nextCallId ending millis).Sendable

variable {target : Target} {method : String} {args : List Json}

theorem callOver_node {callId : UInt64} {connection : Connection} (inTouch : InTouch c n)
    (ready : Ready connection n) (apart : connection.number ∉ c.pool.map (·.number))
    (invoke : (Message.invoke callId target method args).Sendable)
    (answered : ∀ ending after millis,
      n.dispatcher.dispatch target method args = some ⟨ending, after, millis⟩ →
        (∃ outcome, ending = .answered outcome) ∧ (n.service.replyTo callId ending millis).Sendable) :
    let here := Channel.dispatchWithin none target method args n.dispatcher
    ∃ c' n', callOver Node.peers none callId (.invoke callId target method args) connection c n =
        (here.map fun (outcome, _) => Outcome.delivered outcome, c', n') ∧
      n'.dispatcher = (here.map (·.2)).getD n.dispatcher ∧ n'.service = n.service ∧ InTouch c' n' := by
  have reacts : n.service.react (.invoke callId target method args) n.dispatcher .serving =
      n.service.serve (.invoke callId target method args) n.dispatcher := rfl
  cases dispatched : n.dispatcher.dispatch target method args with
  | none =>
      -- The session hangs with the handler, but it is none of those the pool still has.
      rw [Service.serve, dispatched] at reacts
      have exchanged := exchange_node connection ready.quiet ready.served (.inr rfl) invoke reacts
      refine ⟨c, _, ?_, ?_, ?_, inTouch.set_session apart ⟨.stalled, []⟩ n.dispatcher⟩
      · simp only [callOver, exchanged, Channel.dispatchWithin, dispatched]
        rfl
      · simp [Channel.dispatchWithin, dispatched]
      · rfl
  | some reaction =>
      obtain ⟨ending, after, millis⟩ := reaction
      obtain ⟨⟨outcome, rfl⟩, reply⟩ := answered _ _ _ dispatched
      rw [Service.serve, dispatched] at reacts
      have exchanged := exchange_node connection ready.quiet ready.served (.inr rfl) invoke reacts
      rw [Reading.next_pause, Reading.next_say reply] at exchanged
      have answer := isAnswer_delivered outcome
      have still := inTouch.set_session apart ⟨.serving, []⟩ after
      have readyAgain : Ready ⟨connection.number, [.data []]⟩
          { n with dispatcher := after, sessions := n.sessions.set connection.number ⟨.serving, []⟩ } := by
        refine ⟨List.forall_mem_singleton.mpr rfl, List.getElem?_set_self ?_⟩
        exact (List.getElem?_eq_some_iff.mp ready.served).1
      refine ⟨_, _, ?_, ?_, ?_, still.release readyAgain apart⟩
      · simp only [callOver, exchanged, Reading.after, Service.replyTo, Service.outcomeOf, settle,
          Message.delivered, inTime, judge, if_true, answer.reusable, Channel.dispatchWithin, dispatched]
        rfl
      · simp [Channel.dispatchWithin, dispatched]
      · rfl

theorem InTouch.call (inTouch : InTouch c n) (carries : Carries c n target method args) :
    let here := Channel.dispatchWithin none target method args n.dispatcher
    ∃ c' n', call Node.peers none target method args c n =
        (here.map fun (outcome, _) => Outcome.delivered outcome, c', n') ∧
      n'.dispatcher = (here.map (·.2)).getD n.dispatcher ∧ n'.service = n.service ∧ InTouch c' n' := by
  have counted : InTouch { c with nextCallId := c.nextCallId + 1 } n :=
    inTouch.of_same_sessions rfl (.refl _) rfl fun _ _ => rfl
  obtain ⟨connection, c', n', checkedOut, ready, apart, inTouch', dispatcher, service⟩ :=
    counted.checkOut
  have called := callOver_node inTouch' ready apart carries.invoke (by
    rw [dispatcher, service]
    exact carries.answered)
  rw [dispatcher, service] at called
  rw [Client.call, checkedOut]
  exact called

/-! Clients of a node, from their first connection on. -/

/-- A client and its node after any calls. In between others may do to the node what they like, save to
the sessions of the client's own connections. -/
inductive Connected : Client → Node σ → Prop where
  | opened {address clientId : String} {poolSize : Nat} {c : Client} {n n' : Node σ}
      (hello : (Message.hello protocolVersion clientId).Sendable)
      (welcome : (Message.welcome protocolVersion n.service.nodeId).Sendable)
      (connects : connect Node.peers address clientId poolSize n = some (.ok c, n')) : Connected c n'
  | called {c c' : Client} {n n' : Node σ} {target : Target} {method : String} {args : List Json}
      {outcome : Option Outcome} (connected : Connected c n) (carries : Carries c n target method args)
      (calls : call Node.peers none target method args c n = (outcome, c', n')) : Connected c' n'
  | meanwhile {c : Client} {n n' : Node σ} (connected : Connected c n)
      (service : n'.service = n.service)
      (sessions : ∀ connection ∈ c.pool,
        n'.sessions[connection.number]? = n.sessions[connection.number]?) : Connected c n'

theorem connect_node (address : String) {clientId : String} (poolSize : Nat)
    (hello : (Message.hello protocolVersion clientId).Sendable)
    (welcome : (Message.welcome protocolVersion n.service.nodeId).Sendable) :
    ∃ c n', connect Node.peers address clientId poolSize n = some (.ok c, n') ∧
      n'.dispatcher = n.dispatcher ∧ c.nextCallId = 1 ∧ n'.service = n.service ∧ InTouch c n' := by
  have alone : InTouch { fresh address clientId poolSize with nodeId := some n.service.nodeId }
      { n with sessions := n.sessions ++ [⟨.serving, []⟩] } :=
    ⟨hello, welcome, List.nodup_nil, nofun⟩
  have ready : Ready ⟨n.sessions.length, [.data []]⟩
      { n with sessions := n.sessions ++ [⟨.serving, []⟩] } :=
    ⟨List.forall_mem_singleton.mpr rfl, List.getElem?_concat_length⟩
  have opened := openConnection_node (c := fresh address clientId poolSize) hello welcome
  refine ⟨_, _, ?_, ?_, ?_, ?_, alone.release ready List.not_mem_nil⟩
  · rw [connect, opened]
    rfl
  · rfl
  · rw [Client.release]
    split <;> rfl
  · rfl

theorem Connected.inTouch (connected : Connected c n) : InTouch c n := by
  induction connected with
  | opened hello welcome connects =>
      obtain ⟨c', n', connects', -, -, -, inTouch⟩ := connect_node _ _ hello welcome
      cases connects.symm.trans connects'
      exact inTouch
  | called _ carries calls inTouch =>
      obtain ⟨c', n', calls', -, -, inTouchAfter⟩ := inTouch.call carries
      cases calls.symm.trans calls'
      exact inTouchAfter
  | meanwhile _ service sessions inTouch =>
      exact inTouch.of_same_sessions rfl (.refl _) service sessions

/-- A call over a connection is the call made in the process: it comes back if and only if that one
does, with the same value or exception, a cause of null left out, and leaves the dispatcher as that one
does. The client stays connected. -/
theorem call_as_in_process (connected : Connected c n)
    (carries : Carries c n target method args) :
    let here := Channel.inProcess.invoke none target method args n.dispatcher
    ∃ c' n', call Node.peers none target method args c n =
        (here.map fun (outcome, _) => Outcome.delivered outcome, c', n') ∧
      n'.dispatcher = (here.map (·.2)).getD n.dispatcher ∧ Connected c' n' := by
  obtain ⟨c', n', calls, dispatcher, -, -⟩ := connected.inTouch.call carries
  exact ⟨c', n', calls, dispatcher, connected.called carries calls⟩

/-- An entry of extreme numbers, a real beside the integer of the same value, nested items and null is
put over a connection and then found as it was. -/
theorem call_as_in_process_extremes :
    let entry : Json :=
      .array [.integer (-9223372036854775808), .integer 18446744073709551615, .integer 1,
        .real (.ofNat 1), .object [("", .array [.null, .bool true])]]
    let before : Dispatcher Host :=
      Dispatcher.empty.registerClass Host.className (Host.empty.replaceBoard (.fresh "B" ⟨[], []⟩))
    let put : List Json := [.string "B", .string "k", entry]
    ∃ c n, Connected c n ∧ n.dispatcher = before ∧
      Carries c n (.ofClass Host.className) "map_put" put ∧
      ∃ c' n', call Node.peers none (.ofClass Host.className) "map_put" put c n =
          (some (.ok .null), c', n') ∧
        (Channel.inProcess.invoke none (.ofClass Host.className) "map_get" [.string "B", .string "k"]
          n'.dispatcher).map (·.1) = some (.ok (.array [.bool true, entry])) := by
  intro entry before put
  have hello : (Message.hello protocolVersion "client").Sendable :=
    ⟨trivial, by decide, by decide +kernel⟩
  have welcome : (Message.welcome protocolVersion "node").Sendable :=
    ⟨trivial, by decide, by decide +kernel⟩
  obtain ⟨c, n, connects, dispatcher, first, service, -⟩ :=
    connect_node (n := (⟨⟨"node", "handler"⟩, before, []⟩ : Node Host)) "127.0.0.1:4000" 4 hello welcome
  have connected : Connected c n := .opened hello welcome connects
  have carries : Carries c n (.ofClass Host.className) "map_put" put := by
    have invoke : (Message.invoke 1 (.ofClass Host.className) "map_put" put).Sendable := by
      refine ⟨⟨trivial, trivial, ⟨?_, ?_, ?_, ?_, ?_, trivial⟩, trivial⟩, by decide, by decide +kernel⟩
      · exact (by decide : Json.FitsWord (-9223372036854775808))
      · exact (by decide : Json.FitsWord 18446744073709551615)
      · exact (by decide : Json.FitsWord 1)
      · change (Binary64.ofNat 1).isFinite = true
        decide +kernel
      · exact ⟨List.pairwise_singleton _ _, ⟨trivial, trivial, trivial⟩, trivial⟩
    obtain ⟨last, dispatched⟩ : ∃ last, before.dispatch (.ofClass Host.className) "map_put" put =
        some (.answer (.ok .null) last) := ⟨_, rfl⟩
    refine ⟨first ▸ invoke, ?_⟩
    intro ending after millis answers
    rw [dispatcher, dispatched] at answers
    cases answers
    rw [service, first]
    exact ⟨⟨_, rfl⟩, trivial, by decide, by decide +kernel⟩
  obtain ⟨c', n', calls, after, -⟩ := call_as_in_process connected carries
  refine ⟨c, n, connected, dispatcher, carries, c', n', ?_, ?_⟩
  · rw [calls, dispatcher]
    rfl
  · rw [after, dispatcher]
    decide +kernel

end Client

end Coordination
