import Coordination.Remote.Conversation

/-!
What a stream holds is not undone by what comes later: its messages stay, and so does its first flaw.
-/

namespace Coordination

namespace Frame

/-! One message. -/

/-- The length field and what follows it. -/
structure Field (stream field after : Bytes) : Prop where
  split : stream = field ++ after
  width : field.length = 4

theorem scan_eq_message_iff {stream rest : Bytes} {m : Message} :
    scan stream = .message m rest ↔
      ∃ field body, Field stream field (body ++ rest) ∧ body.length = Bytes.ofLittleEndian field ∧
        body.length ≤ maxBody ∧ Message.ofBytes? body = some m := by
  constructor
  · intro scanned
    unfold scan at scanned
    split at scanned
    · cases scanned
    · rename_i field after length
      obtain ⟨split, width⟩ := Bytes.take?_eq_some_iff.mp length
      dsimp only at scanned
      split at scanned
      · cases scanned
      · rename_i small
        split at scanned
        · cases scanned
        · rename_i body _ taken
          obtain ⟨rfl, bodyLength⟩ := Bytes.take?_eq_some_iff.mp taken
          split at scanned
          · rename_i decoded
            cases scanned
            exact ⟨field, body, ⟨split, width⟩, bodyLength, by omega, decoded⟩
          · cases scanned
  · rintro ⟨field, body, ⟨split, width⟩, bodyLength, small, decoded⟩
    have length := Bytes.take?_eq_some_iff.mpr ⟨split, width⟩
    have taken : Bytes.take? _ (body ++ rest) = some (body, rest) :=
      Bytes.take?_eq_some_iff.mpr ⟨rfl, bodyLength⟩
    simp only [scan, length, if_neg (Nat.not_lt.mpr (bodyLength ▸ small)), taken, decoded]

theorem scan_append_of_message {stream rest : Bytes} {m : Message}
    (scanned : scan stream = .message m rest) (more : Bytes) :
    scan (stream ++ more) = .message m (rest ++ more) := by
  obtain ⟨field, body, ⟨rfl, width⟩, length, small, decoded⟩ := scan_eq_message_iff.mp scanned
  exact scan_eq_message_iff.mpr ⟨field, body, ⟨by simp, width⟩, length, small, decoded⟩

theorem length_lt_of_scan {stream rest : Bytes} {m : Message}
    (scanned : scan stream = .message m rest) : rest.length < stream.length := by
  obtain ⟨field, body, ⟨rfl, width⟩, -⟩ := scan_eq_message_iff.mp scanned
  simp only [List.length_append]
  omega

theorem scan_eq_flawed_iff {stream : Bytes} {flaw : Flaw} :
    scan stream = .flawed flaw ↔
      ∃ field after, Field stream field after ∧
        (maxBody < Bytes.ofLittleEndian field ∧ flaw = .tooLarge (Bytes.ofLittleEndian field) ∨
          ∃ body rest, after = body ++ rest ∧ body.length = Bytes.ofLittleEndian field ∧
            body.length ≤ maxBody ∧ Message.ofBytes? body = none ∧ flaw = .undecodable) := by
  constructor
  · intro scanned
    unfold scan at scanned
    split at scanned
    · cases scanned
    · rename_i field after length
      obtain ⟨split, width⟩ := Bytes.take?_eq_some_iff.mp length
      refine ⟨field, after, ⟨split, width⟩, ?_⟩
      dsimp only at scanned
      split at scanned
      · rename_i large
        cases scanned
        exact .inl ⟨large, rfl⟩
      · rename_i small
        split at scanned
        · cases scanned
        · rename_i body rest taken
          obtain ⟨rfl, bodyLength⟩ := Bytes.take?_eq_some_iff.mp taken
          split at scanned
          · cases scanned
          · rename_i undecodable
            cases scanned
            exact .inr ⟨body, rest, rfl, bodyLength, by omega, undecodable, rfl⟩
  · rintro ⟨field, after, ⟨split, width⟩, cause⟩
    have length := Bytes.take?_eq_some_iff.mpr ⟨split, width⟩
    rcases cause with ⟨large, rfl⟩ | ⟨body, rest, rfl, bodyLength, small, undecodable, rfl⟩
    · simp only [scan, length, if_pos large]
    · have taken : Bytes.take? _ (body ++ rest) = some (body, rest) :=
        Bytes.take?_eq_some_iff.mpr ⟨rfl, bodyLength⟩
      simp only [scan, length, if_neg (Nat.not_lt.mpr (bodyLength ▸ small)), taken, undecodable]

theorem scan_append_of_flawed {stream : Bytes} {flaw : Flaw} (scanned : scan stream = .flawed flaw)
    (more : Bytes) : scan (stream ++ more) = .flawed flaw := by
  obtain ⟨field, after, ⟨rfl, width⟩, cause⟩ := scan_eq_flawed_iff.mp scanned
  refine scan_eq_flawed_iff.mpr ⟨field, after ++ more, ⟨by simp, width⟩, ?_⟩
  rcases cause with large | ⟨body, rest, rfl, others⟩
  · exact .inl large
  · exact .inr ⟨body, rest ++ more, by simp, others⟩

/-! A series of messages. -/

/-- The stream begins with these messages, and the rest is left. -/
inductive Holds : Bytes → List Message → Bytes → Prop where
  | nothing (stream : Bytes) : Holds stream [] stream
  | message {stream next rest : Bytes} {m : Message} {later : List Message}
      (scanned : scan stream = .message m next) (holds : Holds next later rest) :
      Holds stream (m :: later) rest

/-- No message can be read here, whether or not one still can come. -/
def Stops (stream : Bytes) : Prop := ∀ m rest, scan stream ≠ .message m rest

variable {stream middle rest : Bytes} {earlier later : List Message}

theorem Holds.append (holds : Holds stream earlier rest) (more : Bytes) :
    Holds (stream ++ more) earlier (rest ++ more) := by
  induction holds with
  | nothing stream => exact .nothing _
  | message scanned _ induction => exact .message (scan_append_of_message scanned more) induction

theorem Holds.trans (first : Holds stream earlier middle) (second : Holds middle later rest) :
    Holds stream (earlier ++ later) rest := by
  induction first with
  | nothing => exact second
  | message scanned _ induction => exact .message scanned (induction second)

theorem holds_one {m : Message} (scanned : scan stream = .message m rest) :
    Holds stream [m] rest :=
  .message scanned (.nothing rest)

theorem holds_readAllWith {fuel : Nat} (enough : stream.length < fuel) :
    ∃ rest, Holds stream ((readAllWith fuel stream).1.map (·.1)) rest ∧ Stops rest := by
  induction fuel generalizing stream with
  | zero => omega
  | succ fuel induction =>
      have step (stopped : (read stream).toOption = none) (stops : Stops stream) :
          ∃ rest, Holds stream ((readAllWith (fuel + 1) stream).1.map (·.1)) rest ∧ Stops rest := by
        refine ⟨stream, ?_, stops⟩
        rw [readAllWith]
        cases readIt : read stream with
        | error flaw => exact .nothing stream
        | ok result => simp [readIt, Except.toOption] at stopped
      cases scanned : scan stream with
      | message m next =>
          have isRead : read stream = .ok (m, next) := by rw [read, scanned]
          obtain ⟨rest, holds, stops⟩ :=
            induction (Nat.lt_of_lt_of_le (length_lt_of_scan scanned) (by omega))
          refine ⟨rest, ?_, stops⟩
          simp only [readAllWith, isRead]
          exact .message scanned holds
      | flawed flaw => exact step (by rw [read, scanned]; rfl) (by simp [Stops, scanned])
      | partialLength => exact step (by rw [read, scanned]; rfl) (by simp [Stops, scanned])
      | partialBody => exact step (by rw [read, scanned]; rfl) (by simp [Stops, scanned])

theorem holds_messages (stream : Bytes) : ∃ rest, Holds stream (messages stream) rest ∧ Stops rest :=
  holds_readAllWith (Nat.lt_succ_self _)

/-- There is one way to take a stream apart into messages and a rest without any. -/
theorem Holds.unique (holds : Holds stream earlier rest) (stops : Stops rest) {rest' : Bytes}
    (holds' : Holds stream later rest') (stops' : Stops rest') : earlier = later ∧ rest = rest' := by
  induction holds generalizing later with
  | nothing stream =>
      cases holds' with
      | nothing => exact ⟨rfl, rfl⟩
      | message scanned _ => exact absurd scanned (stops _ _)
  | message scanned _ induction =>
      cases holds' with
      | nothing => exact absurd scanned (stops' _ _)
      | message scanned' holds' =>
          cases scanned.symm.trans scanned'
          obtain ⟨rfl, rfl⟩ := induction stops holds'
          exact ⟨rfl, rfl⟩

theorem Holds.messages_eq (holds : Holds stream earlier rest) :
    messages stream = earlier ++ messages rest := by
  obtain ⟨_, all, stops⟩ := holds_messages stream
  obtain ⟨_, others, stops'⟩ := holds_messages rest
  exact (all.unique stops (holds.trans others) stops').1

theorem messages_of_stops (stops : Stops stream) : messages stream = [] := by
  obtain ⟨_, all, stops'⟩ := holds_messages stream
  exact (all.unique stops' (.nothing stream) stops).1

end Frame

end Coordination
