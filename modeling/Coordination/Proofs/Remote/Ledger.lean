import Coordination.Proofs.Remote.Client
import Coordination.Proofs.Remote.Wire

/-! What one act of the callers can change: connections that are held, calls that wait, and deeds. -/

namespace Coordination

open Client (IsAnswer)

/-! What a step of the callers changes. -/

/-- The callers without the world that they act on. -/
structure Ledger where
  room : Nat
  pool : List Connection
  opened : Nat
  placed : Nat
  pending : List (Placed × Connection)
  deeds : List Deed

namespace Ledger

/-- The connections that may still carry a call. -/
def held (l : Ledger) : List Connection := l.pool ++ l.pending.map (·.2)

inductive Starts (placed : Placed) (l : Ledger) : Ledger → Prop where
  | pooled {connection : Connection} {pool : List Connection} (had : l.pool = connection :: pool) :
      Starts placed l { l with
        pool, placed := l.placed + 1, pending := l.pending ++ [(placed, connection)]
        deeds := l.deeds ++ [⟨placed, [], none⟩] }
  | unconnected (reason : String) :
      Starts placed l { l with
        placed := l.placed + 1
        deeds := l.deeds ++ [⟨placed, [], some (Client.unreachable reason)⟩] }
  | rejected (clientId : String) (heard : Except String (List Arrival)) {outcome : Option Outcome}
      (unanswered : ∀ o, outcome = some o → ¬ IsAnswer o) :
      Starts placed l { l with
        opened := l.opened + 1, placed := l.placed + 1
        deeds := l.deeds ++
          [⟨placed, [⟨l.opened, Frame.write (.hello protocolVersion clientId), heard⟩], outcome⟩] }
  | greeted (clientId : String) {nodeId : String} {heard unread : List Arrival} {millis : Nat}
      (read : Reading.next heard = .message (.welcome protocolVersion nodeId) unread millis) :
      Starts placed l { l with
        opened := l.opened + 1, placed := l.placed + 1
        pending := l.pending ++ [(placed, ⟨l.opened, unread⟩)]
        deeds := l.deeds ++
          [⟨placed, [⟨l.opened, Frame.write (.hello protocolVersion clientId), .ok heard⟩], none⟩] }

def sending (placed : Placed) (connection : Nat) (heard : Except String (List Arrival))
    (outcome : Option Outcome) : Deed :=
  ⟨some placed, [⟨connection, Frame.write placed.call.message, heard⟩], outcome⟩

inductive Finishes (placed : Placed) (connection : Connection) (l : Ledger) : Ledger → Prop where
  | kept {heard left : List Arrival} {outcome : Outcome} {elapsed : UInt64} {millis : Nat}
      {pool : List Connection}
      (read : Reading.next (connection.inbox ++ heard) =
        .message (.reply placed.call.callId outcome elapsed) left millis)
      (inTime : Client.inTime placed.timeout millis) (reusable : Client.reusable outcome)
      (sublist : pool.Sublist (⟨connection.number, left⟩ :: l.pool))
      (fits : l.pool.length ≤ l.room → pool.length ≤ l.room) :
      Finishes placed connection l { l with
        pool
        deeds := l.deeds ++ [sending placed connection.number (.ok heard) (some outcome)] }
  | dropped (heard : Except String (List Arrival)) {outcome : Option Outcome}
      (unanswered : ∀ o, outcome = some o → ¬ IsAnswer o) :
      Finishes placed connection l { l with
        deeds := l.deeds ++ [sending placed connection.number heard outcome] }

inductive Step (l : Ledger) : Ledger → Prop where
  | idle : Step l l
  | start {placed : Placed} {after : Ledger} (place : placed.place = l.placed)
      (starts : Starts placed l after) : Step l after
  | finish {index : Nat} {placed : Placed} {connection : Connection} {after : Ledger}
      (waits : l.pending[index]? = some (placed, connection))
      (finishes : Finishes placed connection { l with pending := l.pending.eraseIdx index } after) :
      Step l after

end Ledger

namespace Callers

variable {ω : Type} (peers : Peers ω)

def ledger (s : Callers ω) : Ledger :=
  ⟨s.client.poolSize, s.client.pool, s.wire.numbers.length, s.placed, s.pending, s.deeds⟩

theorem ledger_note (s : Callers ω) (placed : Option Placed) (outcome : Option Outcome)
    (client : Client) (wire : Wire ω) :
    (s.note placed outcome client wire).ledger = { s.ledger with
      room := client.poolSize, pool := client.pool, opened := wire.numbers.length
      deeds := s.deeds ++ [⟨placed, wire.sent, outcome⟩] } := rfl

/-- Opening a connection adds one that is greeted, one that is not, or none. -/
theorem openConnection_wire (client : Client) {w : Wire ω} (quiet : w.sent = []) :
    (∃ reason after, Client.openConnection (Wire.peers peers) client w =
        (some (.error (.noConnection client.address reason)), client, after) ∧
      after.sent = [] ∧ after.numbers = w.numbers) ∨
    ∃ heard after opened nodeId, Client.openConnection (Wire.peers peers) client w =
        (opened, { client with nodeId }, after) ∧
      after.sent = [⟨w.numbers.length, Frame.write (.hello protocolVersion client.clientId), heard⟩] ∧
      after.numbers.length = w.numbers.length + 1 ∧
      ((∃ arrivals unread nodeId millis, heard = .ok arrivals ∧
          Reading.next arrivals = .message (.welcome protocolVersion nodeId) unread millis ∧
          opened = some (.ok ⟨w.numbers.length, unread⟩)) ∨
        opened = none ∨ ∃ refused, opened = some (.error refused)) := by
  cases dialed : peers.connect w.world with
  | mk number world =>
      cases number with
      | error reason =>
          refine .inl ⟨reason, { w with world }, ?_, quiet, rfl⟩
          simp only [Client.openConnection, Wire.peers, Wire.connect, dialed]
      | ok number =>
          obtain ⟨heard, after, exchanged, sent, numbers⟩ :=
            Client.exchange_wire peers ⟨w.numbers.length, []⟩ (.hello protocolVersion client.clientId)
              { w with world, numbers := w.numbers ++ [number] }
          have connected : (Wire.peers peers).connect w =
              (.ok w.numbers.length, { w with world, numbers := w.numbers ++ [number] }) := by
            simp only [Wire.peers, Wire.connect, dialed]
          rw [Client.openConnection, connected]
          dsimp only
          rw [exchanged]
          dsimp only
          rw [quiet, List.nil_append] at sent
          have length : after.numbers.length = w.numbers.length + 1 := by simp [numbers]
          refine .inr ⟨heard, after, ?_⟩
          obtain ⟨nodeId, unread, millis, read, greeted⟩ | greeted | ⟨refused, greeted⟩ :=
            client.greeted_cases w.numbers.length
              (heard.map fun arrivals => Reading.next ([] ++ arrivals))
          · rw [greeted]
            cases heard with
            | error => cases read
            | ok arrivals =>
                exact ⟨_, _, rfl, sent, length,
                  .inl ⟨arrivals, unread, nodeId, millis, rfl, Except.ok.inj read, rfl⟩⟩
          · rw [greeted]
            exact ⟨_, client.nodeId, rfl, sent, length, .inr (.inl rfl)⟩
          · rw [greeted]
            exact ⟨_, client.nodeId, rfl, sent, length, .inr (.inr ⟨refused, rfl⟩)⟩

theorem starts_start (placed : Placed) {s : Callers ω} (quiet : s.wire.sent = []) :
    s.ledger.Starts placed (s.start peers placed).ledger := by
  rw [start]
  generalize asking : { s.client with nextCallId := s.client.nextCallId + 1 } = client
  have samePool : client.pool = s.client.pool := by rw [← asking]
  have sameRoom : client.poolSize = s.client.poolSize := by rw [← asking]
  cases had : client.pool with
  | cons connection pool =>
      have taken : Client.checkOut (Wire.peers peers) client s.wire =
          (some (.ok connection), { client with pool }, s.wire) := by rw [Client.checkOut, had]
      dsimp only
      rw [taken]
      have starts : s.ledger.Starts placed _ := .pooled (samePool.symm.trans had)
      simpa only [ledger, note, quiet, sameRoom] using starts
  | nil =>
      dsimp only
      rw [Client.checkOut, had]
      dsimp only
      obtain ⟨reason, wire, opens, sent, numbers⟩ |
        ⟨heard, wire, opened, nodeId, opens, sent, numbers, comes⟩ :=
          openConnection_wire peers client quiet
      · rw [opens]
        have starts : s.ledger.Starts placed _ :=
          .unconnected (Client.Refused.noConnection client.address reason).text
        simpa only [ledger, note, sent, numbers, samePool, sameRoom] using starts
      · rw [opens]
        obtain ⟨arrivals, unread, nodeId, millis, rfl, read, rfl⟩ | rfl | ⟨refused, rfl⟩ := comes
        · have starts : s.ledger.Starts placed _ := .greeted client.clientId read
          simpa only [ledger, note, sent, numbers, samePool, sameRoom] using starts
        · have unanswered (o : Outcome) (is : none = some o) : ¬ IsAnswer o := by cases is
          have starts : s.ledger.Starts placed _ := .rejected client.clientId heard unanswered
          simpa only [ledger, note, sent, numbers, samePool, sameRoom] using starts
        · have starts : s.ledger.Starts placed _ := .rejected client.clientId heard
            fun o is => Option.some.inj is ▸ Client.not_isAnswer_unreachable refused.text
          simpa only [ledger, note, sent, numbers, samePool, sameRoom] using starts

theorem finishes_finish (placed : Placed) (connection : Connection) {s : Callers ω}
    (quiet : s.wire.sent = []) :
    s.ledger.Finishes placed connection (s.finish peers placed connection).ledger := by
  obtain ⟨heard, wire, exchanged, sent, numbers⟩ :=
    Client.exchange_wire peers connection placed.call.message s.wire
  rw [quiet, List.nil_append] at sent
  rw [finish, Client.callOver, exchanged]
  dsimp only
  have same (outcome : Option Outcome) (client : Client)
      (sameRoom : client.poolSize = s.client.poolSize) :
      (s.note placed outcome client wire).ledger = { s.ledger with
        pool := client.pool
        deeds := s.deeds ++ [Ledger.sending placed connection.number heard outcome] } := by
    rw [ledger_note, sent, numbers, sameRoom]
    rfl
  cases settled : Client.settle placed.timeout placed.call.callId connection.number
      (heard.map fun arrivals => Reading.next (connection.inbox ++ arrivals)) with
  | none =>
      dsimp only
      rw [same none _ rfl]
      exact .dropped heard fun o is => by cases is
  | some result =>
      obtain ⟨outcome, kept⟩ := result
      obtain ⟨rfl, unanswered⟩ | ⟨elapsed, left, millis, read, inTime, reusable, rfl⟩ :=
        Client.settle_cases settled
      · dsimp only
        rw [same _ _ rfl]
        exact .dropped heard fun o is => Option.some.inj is ▸ unanswered
      · dsimp only
        rw [same _ _ (Client.release_poolSize _ _)]
        cases heard with
        | error => cases read
        | ok arrivals =>
            exact .kept (Except.ok.inj read) inTime reusable (Client.release_pool_sublist _ _)
              (Client.length_release_pool_le _ _)

theorem step_ledger {s : Callers ω} (quiet : s.wire.sent = []) (act : Act) :
    s.ledger.Step (s.step peers act).ledger := by
  cases act with
  | start timeout target method args => exact .start rfl (starts_start peers _ quiet)
  | finish index =>
      rw [step]
      cases waits : s.pending[index]? with
      | none => exact .idle
      | some waiting =>
          obtain ⟨placed, connection⟩ := waiting
          have isPending : s.ledger.pending[index]? = some (placed, connection) := waits
          have quietToo :
              ({ s with pending := s.pending.eraseIdx index } : Callers ω).wire.sent = [] := quiet
          exact .finish isPending (finishes_finish peers placed connection quietToo)

theorem quiet_step {s : Callers ω} (quiet : s.wire.sent = []) (act : Act) :
    (s.step peers act).wire.sent = [] := by
  cases act with
  | start timeout target method args =>
      dsimp only [step, start]
      split <;> rfl
  | finish index =>
      dsimp only [step]
      split
      · exact quiet
      · rfl

end Callers

end Coordination
