import Coordination.Remote.Callers
import Mathlib

/-! What one exchange and one check-out come to. -/

namespace Coordination.Client

inductive IsAnswer : Outcome → Prop where
  | value (v : Json) : IsAnswer (.ok v)
  | exception (typeName message : String) (payload : Option Json) :
      IsAnswer (.error (.exception typeName message payload))

theorem not_isAnswer_unreachable (reason : String) : ¬ IsAnswer (unreachable reason) := nofun

theorem not_isAnswer_timeout (limit : UInt64) : ¬ IsAnswer (.error (.timeout limit)) := nofun

theorem IsAnswer.reusable {outcome : Outcome} (answer : IsAnswer outcome) :
    reusable outcome = true := by
  cases answer with
  | value | exception => rfl

/-! Exchanges. -/

/-- Only a reply to the call itself leaves the connection fit for another call. -/
theorem eq_reply_of_reusable {callId : UInt64} {m : Message}
    (fit : reusable (judge callId m) = true) :
    ∃ elapsed, m = .reply callId (judge callId m) elapsed := by
  cases m with
  | reply id outcome elapsed =>
      by_cases same : id = callId
      · subst same
        exact ⟨elapsed, by rw [judge, if_pos rfl]⟩
      · rw [judge, if_neg same] at fit
        cases fit
  | hello | welcome | invoke | error => cases fit

/-- The two ways in which an exchange can end: with a reply to the call, in time, and a connection that
is kept, or without an answer and without the connection. -/
theorem settle_cases {timeout : Option UInt64} {callId : UInt64} {number : Nat}
    {result : Except String Reading} {outcome : Outcome} {kept : Option Connection}
    (settled : settle timeout callId number result = some (outcome, kept)) :
    (kept = none ∧ ¬ IsAnswer outcome) ∨
      ∃ elapsed left millis, result = .ok (.message (.reply callId outcome elapsed) left millis) ∧
        inTime timeout millis = true ∧ reusable outcome = true ∧ kept = some ⟨number, left⟩ := by
  have timedOut (late : (timeout.map fun limit => ((.error (.timeout limit) : Outcome),
      (none : Option Connection))) = some (outcome, kept)) : kept = none ∧ ¬ IsAnswer outcome := by
    obtain ⟨limit, -, same⟩ := Option.map_eq_some_iff.mp late
    cases same
    exact ⟨rfl, not_isAnswer_timeout limit⟩
  cases result with
  | error reason =>
      cases settled
      exact .inl ⟨rfl, not_isAnswer_unreachable _⟩
  | ok reading =>
      cases reading with
      | silent => exact .inl (timedOut settled)
      | flawed flaw millis =>
          rw [settle] at settled
          split at settled
          · cases settled
            exact .inl ⟨rfl, not_isAnswer_unreachable _⟩
          · exact .inl (timedOut settled)
      | message m left millis =>
          rw [settle] at settled
          split at settled
          · rename_i soon
            by_cases fit : reusable (judge callId m) = true
            · obtain ⟨elapsed, isReply⟩ := eq_reply_of_reusable fit
              simp only [fit, if_true] at settled
              cases settled
              exact .inr ⟨elapsed, left, millis, by rw [← isReply], soon, fit, rfl⟩
            · simp only [if_neg fit] at settled
              cases settled
              exact .inl ⟨rfl, fun answer => fit answer.reusable⟩
          · exact .inl (timedOut settled)

/-! The pool. -/

variable (c : Client) (connection : Connection)

@[simp] theorem release_poolSize : (c.release connection).poolSize = c.poolSize := by
  unfold release
  split <;> rfl

theorem release_pool_sublist : (c.release connection).pool.Sublist (connection :: c.pool) := by
  unfold release
  split
  · exact .refl _
  · exact .cons _ (.refl _)

theorem length_release_pool_le (room : c.pool.length ≤ c.poolSize) :
    (c.release connection).pool.length ≤ c.poolSize := by
  unfold release
  split
  · assumption
  · exact room

/-! Greetings. -/

/-- A greeting is either answered by a `welcome` of the same version or comes to no connection. -/
theorem greeted_cases (c : Client) (number : Nat) (result : Except String Reading) :
    (∃ nodeId left millis,
      result = .ok (.message (.welcome protocolVersion nodeId) left millis) ∧
        c.greeted number result = (some (.ok ⟨number, left⟩), { c with nodeId := some nodeId })) ∨
      c.greeted number result = (none, c) ∨
      ∃ refused, c.greeted number result = (some (.error refused), c) := by
  cases result with
  | error reason => exact .inr (.inr ⟨_, rfl⟩)
  | ok reading =>
      cases reading with
      | silent => exact .inr (.inl rfl)
      | flawed flaw millis => exact .inr (.inr ⟨_, rfl⟩)
      | message m left millis =>
          cases m with
          | welcome version nodeId =>
              by_cases same : version = protocolVersion
              · subst same
                exact .inl ⟨nodeId, left, millis, rfl, by simp [greeted, welcomed]⟩
              · exact .inr (.inr ⟨.otherVersion version, by simp [greeted, welcomed, same]⟩)
          | hello | invoke | reply | error => exact .inr (.inr ⟨_, rfl⟩)

@[simp] theorem greeted_pool (c : Client) (number : Nat) (result : Except String Reading) :
    (c.greeted number result).2.pool = c.pool := by
  rcases c.greeted_cases number result with ⟨_, _, _, -, greeted⟩ | greeted | ⟨_, greeted⟩
  · rw [greeted]
  · rw [greeted]
  · rw [greeted]

end Coordination.Client
