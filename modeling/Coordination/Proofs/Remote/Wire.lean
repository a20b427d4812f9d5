import Coordination.Proofs.Remote.Client

/-! Observed peers are the same peers. -/

namespace Coordination

namespace Wire

variable {ω : Type}

/-- A connection under the number that the peers themselves gave it. -/
def own (w : Wire ω) (connection : Connection) : Connection :=
  { connection with number := w.numbers.getD connection.number connection.number }

def ownClient (w : Wire ω) (c : Client) : Client := { c with pool := c.pool.map w.own }

theorem own_congr {w after : Wire ω} (numbers : after.numbers = w.numbers) : after.own = w.own := by
  funext connection
  rw [own, own, numbers]

end Wire

namespace Client

variable {ω : Type} (peers : Peers ω)

theorem exchange_wire (connection : Connection) (m : Message) (w : Wire ω) :
    ∃ heard after, exchange (Wire.peers peers) connection m w =
        (heard.map fun arrivals => Reading.next (connection.inbox ++ arrivals), after) ∧
      after.sent = w.sent ++ [⟨connection.number, Frame.write m, heard⟩] ∧
      after.numbers = w.numbers := by
  cases answered : peers.send (w.numbers.getD connection.number connection.number) (Frame.write m)
      w.world with
  | mk heard world =>
      refine ⟨heard, ⟨world, w.numbers, _⟩, ?_, rfl, rfl⟩
      simp only [exchange, Wire.peers, Wire.send, answered]
      cases heard with
      | error | ok => rfl

variable {w : Wire ω}

theorem exchange_own (connection : Connection) (m : Message) :
    exchange peers (w.own connection) m w.world =
      ((exchange (Wire.peers peers) connection m w).1,
        (exchange (Wire.peers peers) connection m w).2.world) := by
  cases answered : peers.send (w.numbers.getD connection.number connection.number) (Frame.write m)
      w.world with
  | mk heard world =>
      simp only [exchange, Wire.own, Wire.peers, Wire.send, answered]
      cases heard with
      | error | ok => rfl

theorem settle_own (timeout : Option UInt64) (callId : UInt64) (number : Nat)
    (result : Except String Reading) :
    settle timeout callId (w.numbers.getD number number) result =
      (settle timeout callId number result).map fun (outcome, kept) => (outcome, kept.map w.own) := by
  have late : (timeout.map fun limit => ((.error (.timeout limit) : Outcome),
      (none : Option Connection))) = (timeout.map fun limit => (.error (.timeout limit), none)).map
        fun (outcome, kept) => (outcome, kept.map w.own) := by
    cases timeout <;> rfl
  cases result with
  | error reason => rfl
  | ok reading =>
      cases reading with
      | silent => exact late
      | flawed flaw millis =>
          simp only [settle]
          split
          · rfl
          · exact late
      | message m left millis =>
          simp only [settle]
          split
          · split <;> rfl
          · exact late

theorem release_own (c : Client) (connection : Connection) :
    (w.ownClient c).release (w.own connection) = w.ownClient (c.release connection) := by
  simp only [release, Wire.ownClient, List.length_map]
  split <;> rfl

theorem callOver_own (timeout : Option UInt64) (callId : UInt64) (m : Message)
    (connection : Connection) (c : Client) :
    callOver peers timeout callId m (w.own connection) (w.ownClient c) w.world =
      let (outcome, c, after) := callOver (Wire.peers peers) timeout callId m connection c w
      (outcome, after.ownClient c, after.world) := by
  obtain ⟨heard, after, exchanged, -, numbers⟩ := exchange_wire peers connection m w
  have sameOwn := Wire.own_congr numbers
  have sameClient : after.ownClient = w.ownClient := by
    funext c
    rw [Wire.ownClient, Wire.ownClient, sameOwn]
  rw [callOver, callOver, exchange_own, exchanged]
  dsimp only
  rw [show (w.own connection).number = w.numbers.getD connection.number connection.number from rfl,
    settle_own]
  cases settle timeout callId connection.number
      (heard.map fun arrivals => Reading.next (connection.inbox ++ arrivals)) with
  | none => rw [Option.map_none, sameClient]
  | some result =>
      obtain ⟨outcome, kept⟩ := result
      cases kept with
      | none =>
          rw [Option.map_some, sameClient]
          rfl
      | some kept =>
          rw [Option.map_some, sameClient]
          exact congrArg (fun c => (some outcome, c, after.world)) (release_own c kept)

theorem greeted_own (c : Client) (number : Nat) (result : Except String Reading) :
    c.greeted (w.numbers.getD number number) result =
      ((c.greeted number result).1.map (·.map w.own), (c.greeted number result).2) := by
  cases result with
  | error reason => rfl
  | ok reading =>
      cases reading with
      | silent | flawed => rfl
      | message m left millis =>
          simp only [greeted]
          cases welcomed m with
          | error | ok => rfl

theorem ownClient_of_empty {c : Client} (empty : c.pool = []) : w.ownClient c = c := by
  rw [Wire.ownClient, empty, List.map_nil, ← empty]

theorem openConnection_own {c : Client} (empty : c.pool = []) :
    openConnection peers c w.world =
      let (opened, c, after) := openConnection (Wire.peers peers) c w
      (opened.map (·.map after.own), after.ownClient c, after.world) := by
  cases dialed : peers.connect w.world with
  | mk number world =>
      cases number with
      | error reason =>
          simp only [openConnection, Wire.peers, Wire.connect, dialed]
          rw [ownClient_of_empty empty]
          rfl
      | ok number =>
          generalize grown : ({ w with world, numbers := w.numbers ++ [number] } : Wire ω) = w'
          have connected : (Wire.peers peers).connect w = (.ok w.numbers.length, w') := by
            simp only [Wire.peers, Wire.connect, dialed, grown]
          have sameWorld : w'.world = world := by rw [← grown]
          have newest : w'.numbers.getD w.numbers.length w.numbers.length = number := by
            simp [← grown]
          obtain ⟨heard, after, exchanged, -, numbers⟩ :=
            exchange_wire peers ⟨w.numbers.length, []⟩ (.hello protocolVersion c.clientId) w'
          have ownExchange := exchange_own peers (w := w') ⟨w.numbers.length, []⟩
            (.hello protocolVersion c.clientId)
          rw [exchanged, Wire.own, newest, sameWorld] at ownExchange
          have ownGreeted := greeted_own (w := w') c w.numbers.length
            (heard.map fun arrivals => Reading.next ([] ++ arrivals))
          rw [newest] at ownGreeted
          rw [openConnection, openConnection, dialed, connected]
          dsimp only
          rw [ownExchange, exchanged]
          dsimp only
          rw [ownGreeted, Wire.own_congr numbers, ownClient_of_empty (by rw [greeted_pool, empty])]

theorem checkOut_own (c : Client) :
    checkOut peers (w.ownClient c) w.world =
      let (opened, c, after) := checkOut (Wire.peers peers) c w
      (opened.map (·.map after.own), after.ownClient c, after.world) := by
  cases had : c.pool with
  | nil =>
      rw [ownClient_of_empty had, checkOut, checkOut, had]
      exact openConnection_own peers had
  | cons connection pool =>
      simp only [checkOut, Wire.ownClient, had, List.map_cons]
      rfl

/-- Under observation a call ends as it would have ended anyhow. -/
theorem call_own (timeout : Option UInt64) (target : Target) (method : String) (args : List Json)
    (c : Client) :
    call peers timeout target method args (w.ownClient c) w.world =
      let (outcome, c, after) := call (Wire.peers peers) timeout target method args c w
      (outcome, after.ownClient c, after.world) := by
  have sameId : (w.ownClient c).nextCallId = c.nextCallId := rfl
  have counted : ({ w.ownClient c with nextCallId := c.nextCallId + 1 } : Client) =
      w.ownClient { c with nextCallId := c.nextCallId + 1 } := rfl
  rw [call, call, sameId, counted, checkOut_own]
  generalize checkOut (Wire.peers peers) _ w = checked
  obtain ⟨opened, client, after⟩ := checked
  cases opened with
  | none => rfl
  | some result =>
      cases result with
      | error refused => rfl
      | ok connection => exact callOver_own peers _ _ _ _ _

end Client

end Coordination
