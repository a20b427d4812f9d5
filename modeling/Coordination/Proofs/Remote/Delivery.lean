import Coordination.Proofs.Remote.Frame
import Coordination.Proofs.Remote.Message

/-!
What is written on a stream is read from it, message by message, and both readers of frames take every
buffer for the same.
-/

namespace Coordination.Frame

variable {m : Message}

/-! One frame. -/

theorem field_write (short : m.bytes.length < Bytes.capacity 4) (rest : Bytes) :
    ∃ field, Field (write m ++ rest) field (m.bytes ++ rest) ∧
      Bytes.ofLittleEndian field = m.bytes.length := by
  refine ⟨Bytes.littleEndian 4 m.bytes.length, ⟨by rw [write, List.append_assoc], by simp⟩, ?_⟩
  rw [Bytes.ofLittleEndian_littleEndian, Nat.mod_eq_of_lt short]

theorem scan_write (sendable : m.Sendable) (rest : Bytes) :
    scan (write m ++ rest) = .message m.delivered rest := by
  have short : m.bytes.length < Bytes.capacity 4 := Nat.lt_of_le_of_lt sendable.short (by decide)
  obtain ⟨field, isField, length⟩ := field_write short rest
  have decoded := Message.ofBytes?_bytes sendable []
  rw [List.append_nil] at decoded
  exact scan_eq_message_iff.mpr ⟨field, m.bytes, isField, length.symm, sendable.short, decoded⟩

theorem read_write (sendable : m.Sendable) (rest : Bytes) :
    read (write m ++ rest) = .ok (m.delivered, rest) := by
  rw [read, scan_write sendable]

/-! The two readers. -/

theorem decode_of_field {buffer field after : Bytes} (isField : Field buffer field after) :
    decode buffer =
      match Bytes.take? (Bytes.ofLittleEndian field) after with
      | none => .error (.incomplete (4 + Bytes.ofLittleEndian field) buffer.length)
      | some (body, _) =>
          match Message.ofBytes? body with
          | some m => .ok (m, 4 + Bytes.ofLittleEndian field)
          | none => .error .undecodable := by
  have taken : Bytes.take? 4 buffer = some (field, after) :=
    Bytes.take?_eq_some_iff.mpr ⟨isField.split, isField.width⟩
  have unfolded := decode.eq_1 buffer
  rw [taken] at unfolded
  exact unfolded

theorem decode_of_message {buffer rest : Bytes} (scanned : scan buffer = .message m rest) :
    ∃ frame, buffer = frame ++ rest ∧ decode buffer = .ok (m, frame.length) := by
  obtain ⟨field, body, isField, length, -, decoded⟩ := scan_eq_message_iff.mp scanned
  have taken : Bytes.take? (Bytes.ofLittleEndian field) (body ++ rest) = some (body, rest) :=
    Bytes.take?_eq_some_iff.mpr ⟨rfl, length⟩
  refine ⟨field ++ body, by rw [List.append_assoc, ← isField.split], ?_⟩
  rw [decode_of_field isField, taken]
  simp only [decoded, List.length_append, isField.width, length]

theorem decode_of_unfinished {buffer : Bytes}
    (unfinished : scan buffer = .partialLength ∨ scan buffer = .partialBody) :
    ∃ flaw, decode buffer = .error flaw := by
  cases taken : Bytes.take? 4 buffer with
  | none => exact ⟨.bufferTooShort buffer.length, by rw [decode, taken]⟩
  | some parts =>
      refine ⟨.incomplete (4 + Bytes.ofLittleEndian parts.1) buffer.length, ?_⟩
      cases short : Bytes.take? (Bytes.ofLittleEndian parts.1) parts.2 with
      | none => simp only [decode, taken, short]
      | some body =>
          simp only [scan, taken, short] at unfinished
          split at unfinished
          · rcases unfinished with impossible | impossible <;> cases impossible
          · split at unfinished <;> rcases unfinished with impossible | impossible <;> cases impossible

/-- Both readers find the same message in a buffer, or both find none, unless its length field is past
the limit, which only the reader of streams heeds. -/
theorem readers_agree (buffer : Bytes) :
    (∃ m frame rest, buffer = frame ++ rest ∧ decode buffer = .ok (m, frame.length) ∧
        read buffer = .ok (m, rest)) ∨
      (∃ flaw flaw', decode buffer = .error flaw ∧ read buffer = .error flaw') ∨
      ∃ field after, Field buffer field after ∧ maxBody < Bytes.ofLittleEndian field ∧
        read buffer = .error (.tooLarge (Bytes.ofLittleEndian field)) := by
  cases scanned : scan buffer with
  | message m rest =>
      obtain ⟨frame, split, decoded⟩ := decode_of_message scanned
      exact .inl ⟨m, frame, rest, split, decoded, by rw [read, scanned]⟩
  | partialLength =>
      obtain ⟨flaw, decoded⟩ := decode_of_unfinished (.inl scanned)
      exact .inr (.inl ⟨flaw, .noLength, decoded, by rw [read, scanned]⟩)
  | partialBody =>
      obtain ⟨flaw, decoded⟩ := decode_of_unfinished (.inr scanned)
      exact .inr (.inl ⟨flaw, .noBody, decoded, by rw [read, scanned]⟩)
  | flawed flaw =>
      obtain ⟨field, after, isField, ⟨large, rfl⟩ | ⟨body, rest, rfl, length, -, undecodable, rfl⟩⟩ :=
        scan_eq_flawed_iff.mp scanned
      · exact .inr (.inr ⟨field, after, isField, large, by rw [read, scanned]⟩)
      · have taken : Bytes.take? (Bytes.ofLittleEndian field) (body ++ rest) = some (body, rest) :=
          Bytes.take?_eq_some_iff.mpr ⟨rfl, length⟩
        have decoded : decode buffer = .error .undecodable := by
          rw [decode_of_field isField, taken]
          simp only [undecodable]
        exact .inr (.inl ⟨_, _, decoded, by rw [read, scanned]⟩)

theorem decode_write (sendable : m.Sendable) (rest : Bytes) :
    decode (write m ++ rest) = .ok (m.delivered, (write m).length) := by
  obtain ⟨frame, split, decoded⟩ := decode_of_message (scan_write sendable rest)
  -- What follows the frame is known, and so the frame is.
  rw [decoded, List.append_cancel_right split]

theorem readers_of_cut (sendable : m.Sendable) {start missing : Bytes}
    (cut : start ++ missing = write m) (nonempty : missing ≠ []) :
    (∃ flaw, decode start = .error flaw) ∧ ∃ flaw, read start = .error flaw := by
  have whole := scan_write sendable []
  rw [List.append_nil, ← cut] at whole
  cases scanned : scan start with
  | message found rest =>
      -- What is missing would be left over once the whole frame is read, but nothing is.
      rw [scan_append_of_message scanned] at whole
      obtain ⟨-, spent⟩ := Progress.message.inj whole
      exact absurd (List.append_eq_nil_iff.mp spent).2 nonempty
  | flawed flaw =>
      rw [scan_append_of_flawed scanned] at whole
      cases whole
  | partialLength => exact ⟨decode_of_unfinished (.inl scanned), .noLength, by rw [read, scanned]⟩
  | partialBody => exact ⟨decode_of_unfinished (.inr scanned), .noBody, by rw [read, scanned]⟩

/-! Many frames. -/

theorem holds_flatMap_write {messages : List Message} (sendable : ∀ m ∈ messages, m.Sendable) :
    Holds (messages.flatMap write) (messages.map (·.delivered)) [] := by
  induction messages with
  | nil => exact .nothing []
  | cons m later induction =>
      obtain ⟨first, others⟩ := List.forall_mem_cons.mp sendable
      exact .message (scan_write first _) (induction others)

theorem Holds.length_le {stream rest : Bytes} {messages : List Message}
    (holds : Holds stream messages rest) : messages.length ≤ stream.length := by
  induction holds with
  | nothing => exact Nat.zero_le _
  | message scanned _ induction => exact Nat.lt_of_le_of_lt induction (length_lt_of_scan scanned)

theorem readAllWith_of_holds {fuel : Nat} {stream rest : Bytes} {messages : List Message} {flaw : Flaw}
    (holds : Holds stream messages rest) (ends : read rest = .error flaw)
    (enough : messages.length < fuel) :
    (readAllWith fuel stream).1.map (·.1) = messages ∧ (readAllWith fuel stream).2 = flaw := by
  induction holds generalizing fuel with
  | nothing stream =>
      obtain ⟨fuel, rfl⟩ := Nat.exists_eq_add_one.mpr enough
      rw [readAllWith, ends]
      exact ⟨rfl, rfl⟩
  | message scanned _ induction =>
      obtain ⟨fuel, rfl⟩ := Nat.exists_eq_add_one.mpr (Nat.zero_lt_of_lt enough)
      obtain ⟨later, last⟩ := induction ends (Nat.lt_of_succ_lt_succ enough)
      rw [readAllWith, read, scanned]
      exact ⟨congrArg (List.cons _) later, last⟩

/-- A stream that was written message by message is read message by message and then found at its end.
One frame is told from what follows it, and a cut one is refused. On any other bytes the two readers
agree, but for the limit on lengths. -/
theorem written_messages_read_back {messages : List Message}
    (sendable : ∀ m ∈ messages, m.Sendable) :
    Holds (messages.flatMap write) (messages.map (·.delivered)) [] ∧
      (readAll (messages.flatMap write)).1.map (·.1) = messages.map (·.delivered) ∧
      (readAll (messages.flatMap write)).2 = .noLength ∧
      (∀ m ∈ messages,
        (∀ rest, decode (write m ++ rest) = .ok (m.delivered, (write m).length)) ∧
          ∀ start, start <+: write m → start ≠ write m →
            (∃ flaw, decode start = .error flaw) ∧ ∃ flaw, read start = .error flaw) ∧
      ∀ buffer,
        (∃ m frame rest, buffer = frame ++ rest ∧ decode buffer = .ok (m, frame.length) ∧
            read buffer = .ok (m, rest)) ∨
          (∃ flaw flaw', decode buffer = .error flaw ∧ read buffer = .error flaw') ∨
          ∃ field after, Field buffer field after ∧ maxBody < Bytes.ofLittleEndian field ∧
            read buffer = .error (.tooLarge (Bytes.ofLittleEndian field)) := by
  have holds := holds_flatMap_write sendable
  have enough : (messages.map (·.delivered)).length < (messages.flatMap write).length + 1 :=
    Nat.lt_succ_of_le holds.length_le
  obtain ⟨found, ended⟩ := readAllWith_of_holds holds rfl enough
  refine ⟨holds, found, ended, ?_, readers_agree⟩
  intro m member
  refine ⟨decode_write (sendable m member), ?_⟩
  rintro start ⟨missing, cut⟩ strict
  refine readers_of_cut (sendable m member) cut ?_
  rintro rfl
  exact strict (by rw [← cut, List.append_nil])

/-- Extreme numbers, a real beside the integer of the same value, and a cause of null. -/
theorem written_messages_read_back_extremes :
    let call : Message := .invoke 18446744073709551615 (.object "tally") "add"
      [.integer (-9223372036854775808), .integer 18446744073709551615, .integer 1, .real (.ofNat 1),
        .object [("", .array [.null, .bool true])]]
    let reply : Message := .reply 7 (.error (.exception "TaskFailed" "boom" (some .null))) 1500
    let told : Message := .reply 7 (.error (.exception "TaskFailed" "boom" none)) 1500
    (∀ m ∈ [call, reply], m.Sendable) ∧
      (readAll ([call, reply].flatMap write)).1.map (·.1) = [call, told] ∧
      decode (write reply ++ [0xff]) = .ok (told, (write reply).length) := by
  intro call reply told
  have callSendable : call.Sendable := by
    refine ⟨⟨?_, ?_, ?_, ?_, ?_, trivial⟩, by decide, by decide +kernel⟩
    · exact (by decide : Json.FitsWord (-9223372036854775808))
    · exact (by decide : Json.FitsWord 18446744073709551615)
    · exact (by decide : Json.FitsWord 1)
    · change (Binary64.ofNat 1).isFinite = true
      decide +kernel
    · exact ⟨List.pairwise_singleton _ _, ⟨trivial, trivial, trivial⟩, trivial⟩
  have replySendable : reply.Sendable := ⟨trivial, by decide, by decide +kernel⟩
  have sendable : ∀ m ∈ [call, reply], m.Sendable := by
    simpa using ⟨callSendable, replySendable⟩
  obtain ⟨-, found, -, single, -⟩ := written_messages_read_back sendable
  exact ⟨sendable, found, (single reply (by simp)).1 [0xff]⟩

end Coordination.Frame
