import Coordination.Proofs.Remote.Client
import Coordination.Remote.Service

/-!
What a call leaves to others. It has to do with one session of the node: one of its client's own
connections, or one that nobody has had before.
-/

namespace Coordination

namespace Node

variable {σ : Type} {n n' n'' : Node σ} {others fewer : Nat → Prop}

/-- No session of these numbers is touched, though there may be more sessions. -/
structure Spares (others : Nat → Prop) (n n' : Node σ) : Prop where
  more : n.sessions.length ≤ n'.sessions.length
  same : ∀ number < n.sessions.length, others number →
    n'.sessions[number]? = n.sessions[number]?

theorem Spares.refl (others : Nat → Prop) (n : Node σ) : Spares others n n :=
  ⟨Nat.le_refl _, fun _ _ _ => rfl⟩

theorem Spares.weaken (spares : Spares others n n')
    (among : ∀ number < n.sessions.length, fewer number → others number) : Spares fewer n n' where
  more := spares.more
  same number inside other := spares.same number inside (among number inside other)

/-- Of the sessions that the first change spares, the second has to spare those that count. -/
theorem Spares.trans (first : Spares others n n') (second : Spares fewer n' n'')
    (among : ∀ number < n.sessions.length, others number → fewer number) : Spares others n n'' where
  more := first.more.trans second.more
  same number inside other :=
    (second.same number (inside.trans_le first.more) (among number inside other)).trans
      (first.same number inside other)

theorem spares_send [Servant σ] {connection : Nat} {bytes : Bytes}
    {heard : Except String (List Arrival)} (sent : n.send connection bytes = (heard, n')) :
    Spares (· ≠ connection) n n' := by
  rw [send] at sent
  split at sent
  · cases sent
    exact .refl _ n
  · cases sent
    exact ⟨(List.length_set ..).ge, fun number _ other => List.getElem?_set_ne (Ne.symm other)⟩

end Node

namespace Client

variable {σ : Type} [Servant σ] {c c' : Client} {n n' : Node σ}

theorem spares_exchange {connection : Connection} {m : Message} {result : Except String Reading}
    (exchanged : exchange Node.peers connection m n = (result, n')) :
    n.Spares (· ≠ connection.number) n' := by
  rw [exchange] at exchanged
  split at exchanged
  all_goals
    rename_i heard
    cases exchanged
    exact Node.spares_send heard

theorem spares_openConnection {opened : Option (Except Refused Connection)}
    (opens : openConnection Node.peers c n = (opened, c', n')) :
    n.Spares (fun _ => True) n' ∧ c'.pool = c.pool ∧
      ∀ connection, opened = some (.ok connection) → connection.number = n.sessions.length := by
  have dialed : n.Spares (fun _ => True) { n with sessions := n.sessions ++ [.fresh] } :=
    ⟨by simp, fun number inside _ => List.getElem?_append_left inside⟩
  cases exchanged : exchange Node.peers ⟨n.sessions.length, []⟩ (.hello protocolVersion c.clientId)
      { n with sessions := n.sessions ++ [.fresh] } with
  | mk result last =>
      have whole := dialed.trans (spares_exchange exchanged) fun number inside _ => Nat.ne_of_lt inside
      have answered : (opened, c', n') = ((c.greeted n.sessions.length result).1,
          (c.greeted n.sessions.length result).2, last) := by
        rw [← opens]
        exact congrArg (fun world : Except String Reading × Node σ =>
          ((c.greeted n.sessions.length world.1).1, (c.greeted n.sessions.length world.1).2, world.2))
          exchanged
      cases answered
      refine ⟨whole, greeted_pool _ _ _, ?_⟩
      intro connection connected
      rcases c.greeted_cases n.sessions.length result with ⟨_, left, _, -, greeted⟩ | greeted |
        ⟨_, greeted⟩
      · rw [greeted] at connected
        cases connected
        rfl
      · rw [greeted] at connected
        cases connected
      · rw [greeted] at connected
        cases connected

theorem spares_connect {address clientId : String} {poolSize : Nat}
    (connects : connect Node.peers address clientId poolSize n = some (.ok c', n')) :
    n.Spares (fun _ => True) n' ∧ ∀ kept ∈ c'.pool, kept.number = n.sessions.length := by
  cases opens : openConnection Node.peers (fresh address clientId poolSize) n with
  | mk opened rest =>
      obtain ⟨c, last⟩ := rest
      obtain ⟨spares, pool, number⟩ := spares_openConnection opens
      simp only [connect, opens] at connects
      obtain ⟨result, rfl, same⟩ := Option.map_eq_some_iff.mp connects
      cases result with
      | error refused => cases same
      | ok connection =>
          cases same
          refine ⟨spares, ?_⟩
          intro kept member
          have pooled := (c.release_pool_sublist connection).subset member
          rw [pool] at pooled
          rw [List.mem_singleton.mp pooled]
          exact number connection rfl

theorem spares_checkOut {opened : Option (Except Refused Connection)}
    (checkedOut : checkOut Node.peers c n = (opened, c', n')) :
    n.Spares (fun _ => True) n' ∧ c'.pool.Sublist c.pool ∧
      ∀ connection, opened = some (.ok connection) →
        connection.number ∈ c.pool.map (·.number) ∨ connection.number = n.sessions.length := by
  cases pool : c.pool with
  | nil =>
      rw [checkOut, pool] at checkedOut
      obtain ⟨spares, same, fresh⟩ := spares_openConnection checkedOut
      refine ⟨spares, ?_, fun connection connected => .inr (fresh connection connected)⟩
      rw [same, pool]
  | cons connection rest =>
      rw [checkOut, pool] at checkedOut
      cases checkedOut
      refine ⟨.refl _ n, .cons _ (.refl _), ?_⟩
      rintro _ ⟨⟩
      exact .inl (List.mem_map_of_mem List.mem_cons_self)

theorem spares_callOver {timeout : Option UInt64} {callId : UInt64} {m : Message}
    {connection : Connection} {outcome : Option Outcome}
    (called : callOver Node.peers timeout callId m connection c n = (outcome, c', n')) :
    n.Spares (· ≠ connection.number) n' ∧
      ∀ kept ∈ c'.pool, kept.number = connection.number ∨ kept ∈ c.pool := by
  rw [callOver] at called
  cases exchanged : exchange Node.peers connection m n with
  | mk result last =>
      have spares := spares_exchange exchanged
      simp only [exchanged] at called
      split at called
      · cases called
        exact ⟨spares, fun kept member => .inr member⟩
      · cases called
        exact ⟨spares, fun kept member => .inr member⟩
      · rename_i again settled
        cases called
        refine ⟨spares, ?_⟩
        intro kept member
        rcases List.mem_cons.mp ((c.release_pool_sublist again).subset member) with rfl | old
        · rcases settle_cases settled with ⟨gone, -⟩ | ⟨_, _, _, -, -, -, same⟩
          · cases gone
          · cases same
            exact .inl rfl
        · exact .inr old

/-- A call touches no session of anybody else, and its client's connections are its former ones and at
most a new one. -/
theorem spares_call {timeout : Option UInt64} {target : Target} {method : String} {args : List Json}
    {outcome : Option Outcome}
    (called : call Node.peers timeout target method args c n = (outcome, c', n')) :
    n.Spares (· ∉ c.pool.map (·.number)) n' ∧
      ∀ kept ∈ c'.pool,
        kept.number ∈ c.pool.map (·.number) ∨ n.sessions.length ≤ kept.number := by
  rw [call] at called
  cases checkedOut : checkOut Node.peers { c with nextCallId := c.nextCallId + 1 } n with
  | mk opened rest =>
      obtain ⟨middle, nMiddle⟩ := rest
      obtain ⟨spares, sublist, numbered⟩ := spares_checkOut checkedOut
      have former (kept : Connection) (member : kept ∈ middle.pool) :
          kept.number ∈ c.pool.map (·.number) := List.mem_map_of_mem (sublist.subset member)
      simp only [checkedOut] at called
      match opened, called with
      | none, called =>
          cases called
          exact ⟨spares.weaken fun _ _ _ => trivial, fun kept member => .inl (former kept member)⟩
      | some (.error refused), called =>
          cases called
          exact ⟨spares.weaken fun _ _ _ => trivial, fun kept member => .inl (former kept member)⟩
      | some (.ok connection), called =>
          obtain ⟨sparesOver, pool⟩ := spares_callOver called
          have number := numbered connection rfl
          refine ⟨(spares.weaken fun _ _ _ => trivial).trans sparesOver ?_, ?_⟩
          · rintro other inside apart rfl
            rcases number with pooled | new
            · exact apart pooled
            · omega
          · intro kept member
            rcases pool kept member with same | old
            · rw [same]
              exact number.imp_right fun new => new.ge
            · exact .inl (former kept old)

end Client

end Coordination
