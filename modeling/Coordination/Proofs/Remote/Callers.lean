import Mathlib.Data.List.Perm.Basic
import Coordination.Proofs.Remote.Deeds
import Coordination.Remote.Scripted

/-!
However calls overlap and whatever is heard, a connection that can still carry a call is in step: it was
greeted, and every call that it carried got its own reply.
-/

namespace Coordination

open Client (IsAnswer)

namespace Ledger

open Deed (carriedBy InStep Completes Follows Each)

variable {l after : Ledger} {placed : Placed} {connection : Connection} {index : Nat}

/-- A call that waits holds a connection of its own. -/
theorem held_perm (waits : l.pending[index]? = some (placed, connection)) :
    l.held.Perm (connection :: ({ l with pending := l.pending.eraseIdx index } : Ledger).held) := by
  obtain ⟨inRange, isWaiting⟩ := List.getElem?_eq_some_iff.mp waits
  have apart : ((placed, connection) :: l.pending.eraseIdx index).Perm l.pending :=
    isWaiting ▸ List.getElem_cons_eraseIdx_perm inRange
  exact ((apart.symm.map (·.2)).append_left l.pool).trans List.perm_middle

theorem Step.room_eq (step : l.Step after) : after.room = l.room := by
  cases step with
  | idle => rfl
  | start _ starts => cases starts <;> rfl
  | finish _ finishes => cases finishes <;> rfl

/-! Connections. -/

structure Sound (l : Ledger) : Prop where
  fits : l.pool.length ≤ l.room
  inStep : ∀ connection ∈ l.held,
    InStep connection.number (carriedBy connection.number l.deeds) connection.inbox
  distinct : (l.held.map (·.number)).Nodup
  opened : ∀ d ∈ l.deeds, ∀ number, d.touches number = true → number < l.opened
  follows : Each Follows l.deeds

namespace Sound

theorem empty (room : Nat) : Sound ⟨room, [], 0, 0, [], []⟩ :=
  ⟨Nat.zero_le _, nofun, List.nodup_nil, nofun, fun earlier _ _ whole => by simp at whole⟩

theorem number_lt (sound : Sound l) (isHeld : connection ∈ l.held) :
    connection.number < l.opened := by
  obtain ⟨d, member, touches⟩ := (sound.inStep connection isHeld).exists_touches
  exact sound.opened d member _ touches

theorem carriedBy_opened (sound : Sound l) : carriedBy l.opened l.deeds = [] := by
  refine List.filter_eq_nil_iff.mpr fun d member touches => ?_
  exact Nat.lt_irrefl _ (sound.opened d member _ touches)

/-- One more deed, by which connections may come, go and be used. -/
theorem add {d : Deed} (sound : Sound l) (deeds : after.deeds = l.deeds ++ [d])
    (fits : after.pool.length ≤ after.room) (opened : l.opened ≤ after.opened)
    (touched : ∀ number, d.touches number = true → number < after.opened)
    (follows : Follows l.deeds d) (distinct : (after.held.map (·.number)).Nodup)
    (held : ∀ connection ∈ after.held,
      (connection ∈ l.held ∧ ¬ d.touches connection.number = true) ∨
        InStep connection.number (carriedBy connection.number (l.deeds ++ [d])) connection.inbox) :
    Sound after where
  fits := fits
  inStep connection isHeld := by
    rw [deeds]
    obtain ⟨wasHeld, untouched⟩ | inStep := held connection isHeld
    · rw [Deed.carriedBy_append_one_of_not_touches untouched]
      exact sound.inStep connection wasHeld
    · exact inStep
  distinct := distinct
  opened e member number touches := by
    rw [deeds] at member
    obtain earlier | last := List.mem_append.mp member
    · exact Nat.lt_of_lt_of_le (sound.opened e earlier number touches) opened
    · cases List.mem_singleton.mp last
      exact touched number touches
  follows := by
    rw [deeds]
    exact Deed.each_append_one sound.follows follows

/-- The first connection, opened for no call. -/
theorem connected {room : Nat} {pool : List Connection} {heard unread : List Arrival}
    {nodeId : String} {millis : Nat} (clientId : String)
    (read : Reading.next heard = .message (.welcome protocolVersion nodeId) unread millis)
    (sublist : pool.Sublist [⟨0, unread⟩]) (fits : pool.length ≤ room) :
    Sound ⟨room, pool, 1, 0, [],
      [⟨none, [⟨0, Frame.write (.hello protocolVersion clientId), .ok heard⟩], none⟩]⟩ := by
  refine (empty room).add rfl fits (Nat.zero_le _) ?_ (.greeting rfl nofun) ?_ ?_
  · exact fun number touches => Nat.lt_succ_of_le (Nat.le_of_eq (Deed.touches_one.mp touches))
  · rw [held, List.map_nil, List.append_nil]
    exact (sublist.map _).nodup (List.nodup_cons.mpr ⟨nofun, List.nodup_nil⟩)
  · intro connection isHeld
    rw [held, List.map_nil, List.append_nil] at isHeld
    cases List.mem_singleton.mp (sublist.mem isHeld)
    exact .inr (.greeted read)

theorem not_touches_opened (sound : Sound l) (isHeld : connection ∈ l.held)
    {by' : Option Placed} {bytes : Bytes} {heard : Except String (List Arrival)}
    {outcome : Option Outcome} :
    ¬ Deed.touches ⟨by', [⟨l.opened, bytes, heard⟩], outcome⟩ connection.number = true :=
  fun touches => Nat.ne_of_lt (sound.number_lt isHeld) (Deed.touches_one.mp touches)

theorem starts (sound : Sound l) (starts : l.Starts placed after) : Sound after := by
  cases starts with
  | @pooled connection pool had =>
      have same : (pool ++ (l.pending ++ [(placed, connection)]).map (·.2)).Perm l.held := by
        rw [held, had, List.map_append, ← List.append_assoc]
        exact List.perm_append_singleton _ _
      refine sound.add rfl ?_ (Nat.le_refl _) nofun (.idle nofun) ?_ ?_
      · have fits := sound.fits
        rw [had] at fits
        exact Nat.le_of_succ_le fits
      · exact (same.map _).nodup_iff.mpr sound.distinct
      · exact fun connection isHeld => .inl ⟨same.mem_iff.mp isHeld, nofun⟩
  | unconnected reason =>
      refine sound.add rfl sound.fits (Nat.le_refl _) nofun (.idle ?_) sound.distinct ?_
      · exact fun o is => Option.some.inj is ▸ Client.not_isAnswer_unreachable _
      · exact fun connection isHeld => .inl ⟨isHeld, nofun⟩
  | rejected clientId heard unanswered =>
      refine sound.add rfl sound.fits (Nat.le_succ _) ?_ (.greeting sound.carriedBy_opened unanswered)
        sound.distinct ?_
      · exact fun number touches => Nat.lt_succ_of_le (Nat.le_of_eq (Deed.touches_one.mp touches))
      · exact fun connection isHeld => .inl ⟨isHeld, sound.not_touches_opened isHeld⟩
  | @greeted clientId nodeId heard unread millis read =>
      have same : (l.pool ++
          (l.pending ++ [((placed, ⟨l.opened, unread⟩) : Placed × Connection)]).map (·.2)).Perm
            (⟨l.opened, unread⟩ :: l.held) := by
        rw [List.map_append, ← List.append_assoc]
        exact List.perm_append_singleton _ _
      refine sound.add rfl sound.fits (Nat.le_succ _) ?_ (.greeting sound.carriedBy_opened nofun) ?_ ?_
      · exact fun number touches => Nat.lt_succ_of_le (Nat.le_of_eq (Deed.touches_one.mp touches))
      · refine (same.map _).nodup_iff.mpr (List.nodup_cons.mpr ⟨fun member => ?_, sound.distinct⟩)
        obtain ⟨connection, isHeld, number⟩ := List.mem_map.mp member
        exact Nat.ne_of_lt (sound.number_lt isHeld) number
      · intro connection isHeld
        obtain rfl | wasHeld := List.mem_cons.mp (same.mem_iff.mp isHeld)
        · refine .inr ?_
          rw [Deed.carriedBy_append_one_of_touches (Deed.touches_one.mpr rfl), sound.carriedBy_opened]
          exact .greeted read
        · exact .inl ⟨wasHeld, sound.not_touches_opened wasHeld⟩

theorem finishes (sound : Sound l) (waits : l.pending[index]? = some (placed, connection))
    (finishes : Finishes placed connection { l with pending := l.pending.eraseIdx index } after) :
    Sound after := by
  have same := held_perm waits
  have isHeld : connection ∈ l.held := same.mem_iff.mpr List.mem_cons_self
  have inStep := sound.inStep connection isHeld
  have distinct := (same.map (·.number)).nodup_iff.mp sound.distinct
  rw [List.map_cons, List.nodup_cons] at distinct
  have touched {heard : Except String (List Arrival)} {outcome : Option Outcome} (number : Nat)
      (touches : (sending placed connection.number heard outcome).touches number = true) :
      number < l.opened :=
    (Deed.touches_one.mp touches) ▸ sound.number_lt isHeld
  -- no other connection that is held has the number of this one
  have others (other : Connection) (heard : Except String (List Arrival)) (outcome : Option Outcome)
      (isOther : other ∈ ({ l with pending := l.pending.eraseIdx index } : Ledger).held) :
      other ∈ l.held ∧ ¬ (sending placed connection.number heard outcome).touches other.number = true :=
    ⟨same.mem_iff.mpr (List.mem_cons_of_mem _ isOther),
      fun touches => distinct.1 (Deed.touches_one.mp touches ▸ List.mem_map_of_mem isOther)⟩
  cases finishes with
  | @kept heard left outcome elapsed millis pool read inTime reusable sublist fits =>
      have completes : Completes connection.number connection.inbox
          (sending placed connection.number (.ok heard) (some outcome)) outcome left :=
        .reply read inTime
      have fewer : (pool ++ (l.pending.eraseIdx index).map (·.2)).Sublist
          (⟨connection.number, left⟩ ::
            ({ l with pending := l.pending.eraseIdx index } : Ledger).held) :=
        sublist.append_right _
      refine sound.add rfl (fits sound.fits) (Nat.le_refl _) touched (.exchange inStep ?_) ?_ ?_
      · intro o is _
        cases is
        exact ⟨left, completes⟩
      · exact (fewer.map _).nodup (List.nodup_cons.mpr distinct)
      · intro other isHeldNow
        obtain rfl | isOther := List.mem_cons.mp (fewer.mem isHeldNow)
        · refine .inr ?_
          have touches : (sending placed connection.number (.ok heard) (some outcome)).touches
              connection.number = true := Deed.touches_one.mpr rfl
          rw [Deed.carriedBy_append_one_of_touches touches]
          exact .completed inStep completes reusable
        · exact .inl (others other _ _ isOther)
  | dropped heard unanswered =>
      refine sound.add rfl sound.fits (Nat.le_refl _) touched (.exchange inStep ?_) distinct.2 ?_
      · exact fun o is answer => absurd answer (unanswered o is)
      · exact fun other isOther => .inl (others other _ _ isOther)

theorem step (sound : Sound l) (step : l.Step after) : Sound after := by
  cases step with
  | idle => exact sound
  | start _ starts => exact sound.starts starts
  | finish waits finishes => exact sound.finishes waits finishes

end Sound

/-! Calls. -/

/-- What holds of the calls that were placed: one that waits has sent nothing yet, and none has sent
twice. -/
structure Places (l : Ledger) : Prop where
  waiting : (l.pending.map (·.1.place)).Nodup
  placed : ∀ p ∈ l.pending, p.1.place < l.placed
  sent : ∀ d ∈ l.deeds, d.Invokes → ∀ q, d.placed = some q →
    q.place < l.placed ∧ ∀ p ∈ l.pending, q.place ≠ p.1.place
  once : l.deeds.Pairwise fun d e => d.Invokes → e.Invokes →
    ∀ p q, d.placed = some p → e.placed = some q → p.place ≠ q.place

namespace Places

theorem connected (room opened : Nat) (pool : List Connection) (clientId : String)
    (heard : Except String (List Arrival)) :
    Places ⟨room, pool, opened, 0, [],
      [⟨none, [⟨0, Frame.write (.hello protocolVersion clientId), heard⟩], none⟩]⟩ where
  waiting := List.nodup_nil
  placed := nofun
  sent d member invokes := by
    cases List.mem_singleton.mp member
    exact absurd invokes (Deed.not_invokes_greeting _ _ _ _ _)
  once := List.pairwise_singleton _ _

theorem add {d : Deed} (places : Places l) (counted : after.placed = l.placed + 1)
    (deeds : after.deeds = l.deeds ++ [d]) (quiet : ¬ d.Invokes)
    (waiting : (after.pending.map (·.1.place)).Nodup)
    (pending : ∀ p ∈ after.pending, p ∈ l.pending ∨ p.1.place = l.placed) : Places after where
  waiting := waiting
  placed p member := by
    have early := (pending p member).imp (places.placed p) Nat.le_of_eq
    omega
  sent e member invokes q isPlaced := by
    rw [deeds] at member
    obtain earlier | last := List.mem_append.mp member
    · obtain ⟨before, apart⟩ := places.sent e earlier invokes q isPlaced
      refine ⟨by omega, fun p isPending => ?_⟩
      obtain waited | new := pending p isPending
      · exact apart p waited
      · omega
    · cases List.mem_singleton.mp last
      exact absurd invokes quiet
  once := by
    rw [deeds, List.pairwise_append]
    refine ⟨places.once, List.pairwise_singleton _ _, fun e _ f last _ invokes => ?_⟩
    cases List.mem_singleton.mp last
    exact absurd invokes quiet

theorem waiting_append (places : Places l) (place : placed.place = l.placed)
    (connection : Connection) :
    ((l.pending ++ [(placed, connection)]).map (·.1.place)).Nodup := by
  rw [List.map_append, List.nodup_append]
  refine ⟨places.waiting, List.nodup_cons.mpr ⟨nofun, List.nodup_nil⟩, ?_⟩
  intro number waits new isNew
  obtain ⟨p, member, rfl⟩ := List.mem_map.mp waits
  have early := places.placed p member
  have late : new = placed.place := List.mem_singleton.mp isNew
  omega

theorem starts (places : Places l) (place : placed.place = l.placed)
    (starts : l.Starts placed after) : Places after := by
  have appended (connection : Connection) (p : Placed × Connection)
      (member : p ∈ l.pending ++ [(placed, connection)]) : p ∈ l.pending ∨ p.1.place = l.placed := by
    obtain waited | new := List.mem_append.mp member
    · exact .inl waited
    · cases List.mem_singleton.mp new
      exact .inr place
  cases starts with
  | @pooled connection pool had =>
      exact places.add rfl rfl (Deed.not_invokes_idle _ _) (places.waiting_append place connection)
        (appended connection)
  | unconnected reason =>
      exact places.add rfl rfl (Deed.not_invokes_idle _ _) places.waiting fun p => .inl
  | rejected clientId heard unanswered =>
      exact places.add rfl rfl (Deed.not_invokes_greeting _ _ _ _ _) places.waiting fun p => .inl
  | greeted clientId read =>
      exact places.add rfl rfl (Deed.not_invokes_greeting _ _ _ _ _)
        (places.waiting_append place _) (appended _)

theorem send (places : Places l) (waits : l.pending[index]? = some (placed, connection))
    {heard : Except String (List Arrival)} {outcome : Option Outcome}
    (counted : after.placed = l.placed) (pending : after.pending = l.pending.eraseIdx index)
    (deeds : after.deeds = l.deeds ++ [sending placed connection.number heard outcome]) :
    Places after := by
  obtain ⟨inRange, isWaiting⟩ := List.getElem?_eq_some_iff.mp waits
  have same : ((placed, connection) :: l.pending.eraseIdx index).Perm l.pending :=
    isWaiting ▸ List.getElem_cons_eraseIdx_perm inRange
  have waited : (placed, connection) ∈ l.pending := same.mem_iff.mp List.mem_cons_self
  have distinct := (same.map (·.1.place)).nodup_iff.mpr places.waiting
  rw [List.map_cons, List.nodup_cons] at distinct
  have stillWaited {p : Placed × Connection} (member : p ∈ after.pending) : p ∈ l.pending :=
    List.mem_of_mem_eraseIdx (pending ▸ member)
  refine ⟨pending ▸ distinct.2, fun p member => counted ▸ places.placed p (stillWaited member), ?_, ?_⟩
  · intro e member invokes q isPlaced
    rw [deeds] at member
    obtain earlier | last := List.mem_append.mp member
    · obtain ⟨before, apart⟩ := places.sent e earlier invokes q isPlaced
      exact ⟨counted ▸ before, fun p isPending => apart p (stillWaited isPending)⟩
    · cases List.mem_singleton.mp last
      cases isPlaced
      refine ⟨counted ▸ places.placed _ waited, fun p isPending same => distinct.1 ?_⟩
      rw [same]
      exact List.mem_map_of_mem (pending ▸ isPending)
  · rw [deeds, List.pairwise_append]
    refine ⟨places.once, List.pairwise_singleton _ _, ?_⟩
    intro e member f last invokes _ p q isPlaced isSent
    cases List.mem_singleton.mp last
    cases isSent
    exact (places.sent e member invokes p isPlaced).2 _ waited

theorem step (places : Places l) (step : l.Step after) : Places after := by
  cases step with
  | idle => exact places
  | start place starts => exact places.starts place starts
  | finish waits finishes =>
      cases finishes with
      | kept | dropped => exact places.send waits rfl rfl rfl

end Places

end Ledger

/-! Runs. -/

namespace Callers

open Deed (carriedBy InStep Completes Each)

/-- What callers can rely on, whoever is at the other end. -/
structure InOrder {ω : Type} (poolSize : Nat) (s : Callers ω) : Prop where
  room : s.client.pool.length ≤ max poolSize 1
  pooled : ∀ connection ∈ s.client.pool,
    InStep connection.number (carriedBy connection.number s.deeds) connection.inbox
  -- an answer comes from a reply to the call itself
  answered : Each (fun earlier d => ∀ outcome, d.outcome = some outcome → IsAnswer outcome →
    ∃ number unread left, InStep number (carriedBy number earlier) unread ∧
      Completes number unread d outcome left) s.deeds
  -- a call is sent over a connection that was greeted and has completed what it carried
  sent : Each (fun earlier d => d.Invokes → ∃ placed number heard unread,
    d.placed = some placed ∧ d.sent = [⟨number, Frame.write placed.call.message, heard⟩] ∧
      InStep number (carriedBy number earlier) unread) s.deeds
  once : s.deeds.Pairwise fun d e => d.Invokes → e.Invokes →
    ∀ p q, d.placed = some p → e.placed = some q → p.place ≠ q.place
  -- a connection is not used again if its call was late, lost or `Unreachable`
  reused : ∀ earlier d middle e later number, s.deeds = earlier ++ d :: (middle ++ e :: later) →
    d.Invokes → d.touches number = true → e.touches number = true →
      ∃ unread left outcome, InStep number (carriedBy number earlier) unread ∧
        Completes number unread d outcome left ∧ Client.reusable outcome = true

variable {ω : Type} {peers : Peers ω} {poolSize : Nat} {s : Callers ω}

structure Invariant (poolSize : Nat) (s : Callers ω) : Prop where
  quiet : s.wire.sent = []
  room : s.client.poolSize = max poolSize 1
  sound : s.ledger.Sound
  places : s.ledger.Places

theorem Invariant.step (invariant : Invariant poolSize s) (act : Act) :
    Invariant poolSize (s.step peers act) where
  quiet := quiet_step peers invariant.quiet act
  room := (step_ledger peers invariant.quiet act).room_eq.trans invariant.room
  sound := invariant.sound.step (step_ledger peers invariant.quiet act)
  places := invariant.places.step (step_ledger peers invariant.quiet act)

theorem Invariant.run (invariant : Invariant poolSize s) (acts : List Act) :
    Invariant poolSize (s.run peers acts) := by
  induction acts generalizing s with
  | nil => exact invariant
  | cons act later induction => exact induction (invariant.step act)

theorem Invariant.inOrder (invariant : Invariant poolSize s) : InOrder poolSize s where
  room := invariant.room ▸ invariant.sound.fits
  pooled connection member := invariant.sound.inStep connection (List.mem_append_left _ member)
  answered earlier d later whole outcome isOutcome answer := by
    have follows := invariant.sound.follows earlier d later whole
    cases follows with
    | idle unanswered => exact absurd answer (unanswered outcome isOutcome)
    | greeting fresh unanswered => exact absurd answer (unanswered outcome isOutcome)
    | exchange inStep answered =>
        obtain ⟨left, completes⟩ := answered outcome isOutcome answer
        exact ⟨_, _, left, inStep, completes⟩
  sent earlier d later whole invokes := by
    have follows := invariant.sound.follows earlier d later whole
    cases follows with
    | idle => exact absurd invokes (Deed.not_invokes_idle _ _)
    | greeting => exact absurd invokes (Deed.not_invokes_greeting _ _ _ _ _)
    | exchange inStep _ => exact ⟨_, _, _, _, rfl, rfl, inStep⟩
  once := invariant.places.once
  reused earlier d middle e later number whole invokes touched touches := by
    rw [← List.cons_append, ← List.append_assoc] at whole
    have follows := invariant.sound.follows _ e later whole
    -- what `e` finds in the past of the connection has `d` in it
    have past : carriedBy number (earlier ++ d :: middle) =
        carriedBy number earlier ++ d :: carriedBy number middle := by
      simp [carriedBy, touched]
    cases follows with
    | idle => cases touches
    | greeting fresh _ =>
        cases Deed.touches_one.mp touches
        simp [past] at fresh
    | exchange inStep _ =>
        cases Deed.touches_one.mp touches
        rw [past] at inStep
        exact inStep.completes_of_invokes invokes

theorem invariant_of_connect {address clientId : String} {world : ω}
    (connected : connect peers address clientId poolSize world = some (.ok s)) :
    Invariant poolSize s := by
  rw [connect, Client.connect] at connected
  obtain ⟨reason, wire, opens, -⟩ | ⟨heard, wire, opened, nodeId, opens, sent, numbers, comes⟩ :=
    openConnection_wire peers (.fresh address clientId poolSize) (w := .start world) rfl
  · rw [opens] at connected
    cases connected
  · rw [opens] at connected
    obtain ⟨arrivals, unread, node, millis, rfl, read, rfl⟩ | rfl | ⟨refused, rfl⟩ := comes
    · cases connected
      have isSound := Ledger.Sound.connected clientId read (Client.release_pool_sublist
        { Client.fresh address clientId poolSize with nodeId } ⟨0, unread⟩)
        (Client.length_release_pool_le _ _ (Nat.zero_le _))
      have deeds : ([⟨none, wire.sent, none⟩] : List Deed) =
          [⟨none, [⟨0, Frame.write (.hello protocolVersion clientId), .ok arrivals⟩], none⟩] := by
        rw [sent]
        rfl
      refine ⟨rfl, Client.release_poolSize _ _, ?_, ?_⟩
      · simpa [ledger, deeds, numbers, Wire.start] using isSound
      · simpa [ledger, deeds, numbers, Wire.start] using Ledger.Places.connected _ _ _ _ _
    · cases connected
    · cases connected

/-- However the calls of a client overlap and whatever its peers do, no connection is kept or used
again but in step. -/
theorem run_inOrder {address clientId : String} {world : ω}
    (connected : connect peers address clientId poolSize world = some (.ok s)) (acts : List Act) :
    InOrder poolSize (s.run peers acts) :=
  ((invariant_of_connect connected).run acts).inOrder

theorem run_inOrder_hanging : ∃ s,
    connect ScriptedPeers.peers "node:1" "client" 2 (.start
        [[.say (Frame.write (.welcome protocolVersion "node")), .reply (.ok (.bool true))],
          [.say (Frame.write (.welcome protocolVersion "node")), .hang]]) = some (.ok s) ∧
      let acts := [.start none (.ofClass "Echo") "yes" [], .start (some 5) (.ofClass "Echo") "no" [],
        .finish 1, .finish 0]
      InOrder 2 (s.run ScriptedPeers.peers acts) ∧
        (s.run ScriptedPeers.peers acts).deeds.map (·.outcome) =
          [none, none, none, some (.error (.timeout 5)), some (.ok (.bool true))] := by
  have evaluated : (match connect ScriptedPeers.peers "node:1" "client" 2 (.start
        [[.say (Frame.write (.welcome protocolVersion "node")), .reply (.ok (.bool true))],
          [.say (Frame.write (.welcome protocolVersion "node")), .hang]]) with
      | some (.ok s) => decide ((s.run ScriptedPeers.peers
          [.start none (.ofClass "Echo") "yes" [], .start (some 5) (.ofClass "Echo") "no" [],
            .finish 1, .finish 0]).deeds.map (·.outcome) =
          [none, none, none, some (.error (.timeout 5)), some (.ok (.bool true))])
      | some (.error _) => false
      | none => false) = true := by
    decide +kernel
  split at evaluated
  · rename_i s connected
    exact ⟨s, connected, run_inOrder connected _, of_decide_eq_true evaluated⟩
  · cases evaluated
  · cases evaluated

/-! Calls that do not overlap. -/

theorem callOver_sent (peers : Peers ω) (timeout : Option UInt64) (callId : UInt64) (m : Message)
    (connection : Connection) (c : Client) (w : Wire ω) :
    ∃ outcome client after sent,
      Client.callOver (Wire.peers peers) timeout callId m connection c w = (outcome, client, after) ∧
      Client.callOver (Wire.peers peers) timeout callId m connection c { w with sent := [] } =
        (outcome, client, { after with sent }) := by
  cases answered : peers.send (w.numbers.getD connection.number connection.number) (Frame.write m)
      w.world with
  | mk heard world =>
      simp only [Client.callOver, Client.exchange, Wire.peers, Wire.send, answered]
      cases heard with
      | error | ok =>
          dsimp only
          split
          · exact ⟨_, _, _, _, rfl, rfl⟩
          · exact ⟨_, _, _, _, rfl, rfl⟩
          · exact ⟨_, _, _, _, rfl, rfl⟩

theorem run_call_observed (peers : Peers ω) (s : Callers ω) (timeout : Option UInt64)
    (target : Target) (method : String) (args : List Json) :
    let (outcome, client, wire) :=
      Client.call (Wire.peers peers) timeout target method args s.client s.wire
    let ran := s.run peers [.start timeout target method args, .finish s.pending.length]
    ran.client = client ∧ ran.wire = { wire with sent := [] } ∧ ran.pending = s.pending ∧
      (ran.deeds.getLast?.bind (·.outcome)) = outcome := by
  dsimp only [run, List.foldl, step, start, Client.call]
  generalize Client.checkOut (Wire.peers peers) _ s.wire = checked
  obtain ⟨opened, client, wire⟩ := checked
  obtain _ | refused | connection := opened
  · simp [note]
  · simp [note]
  · obtain ⟨outcome, client', after, sent, whole, emptied⟩ := callOver_sent peers timeout
      s.client.nextCallId (.invoke s.client.nextCallId target method args) connection client wire
    dsimp only
    rw [whole]
    simp [note, finish, Call.message, emptied, List.eraseIdx_append_of_length_le]

/-- A call that is placed and finished with nothing in between is a call of the client to the peers
themselves: it ends as that one does, and leaves the client and the peers as that one does. -/
theorem run_call (s : Callers ω) (timeout : Option UInt64) (target : Target) (method : String)
    (args : List Json) :
    let ran := s.run peers [.start timeout target method args, .finish s.pending.length]
    ran.pending = s.pending ∧
      Client.call peers timeout target method args (s.wire.ownClient s.client) s.wire.world =
        (ran.deeds.getLast?.bind (·.outcome), ran.wire.ownClient ran.client, ran.wire.world) := by
  obtain ⟨client, wire, pending, outcome⟩ := run_call_observed peers s timeout target method args
  refine ⟨pending, ?_⟩
  rw [Client.call_own, client, wire, outcome]
  rfl

end Callers

end Coordination
