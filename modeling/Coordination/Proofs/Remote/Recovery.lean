import Coordination.Board.Host
import Coordination.Proofs.Fault
import Coordination.Proofs.Remote.Delivery
import Coordination.Proofs.Remote.Dispatcher

/-!
A caller recovers the fault that a handler failed with, wherever the handler ran, and takes no other
failure for a fault.
-/

namespace Coordination

namespace Message

open MessagePack

variable {budget : Nat}

/-! What is read at all is read as it was sent, however deep it goes. -/

theorem eq_of_payload?_getD {payload found : Option Json} (valid : ∀ v, payload = some v → v.Valid)
    (read : payload? budget (some (Item.ofJson (payload.getD .null))) = some found) :
    found = if payload = some .null then none else payload := by
  cases payload with
  | none => exact (Option.some.inj read).symm
  | some v =>
      by_cases present : v = .null
      · subst present
        exact (Option.some.inj read).symm
      · rw [Option.getD_some, payload?_ofJson present] at read
        obtain ⟨w, inner, rfl⟩ := Option.map_eq_some_iff.mp read
        rw [Item.eq_of_json?_ofJson v (valid v rfl) inner, if_neg (by simpa using present)]

theorem eq_delivered_of_failure? {failure found : Failure} (valid : failure.Valid)
    (inside : 1 < budget) (read : failure? budget (Item.ofJson (packedFailure failure)) = some found) :
    found = failure.delivered := by
  cases failure with
  | unreachable | timeout =>
      rw [failure?_packedFailure valid inside] at read
      exact (Option.some.inj read).symm
  | exception typeName message payload =>
      have fields : (Item.ofJson (.array [.string typeName, .string message, payload.getD .null])).fields?
          budget ["type_name", "message", "payload"] = _ := fields?_array inside rfl
      rw [packedFailure, failure?, variant?_object 1 rfl] at read
      simp only [fields, List.map_cons, List.map_nil, text?_string] at read
      cases inner : payload? (budget - 1) (some (Item.ofJson (payload.getD .null))) with
      | none => simp [inner] at read
      | some arrived =>
          have proper : ∀ v, payload = some v → v.Valid := by
            rintro v rfl
            exact valid
          rw [inner] at read
          rw [delivered_exception, ← eq_of_payload?_getD proper inner]
          exact (Option.some.inj read).symm

theorem eq_delivered_of_ofItem? {failure : Failure} (valid : failure.Valid) {callId elapsed : UInt64}
    {found : Message}
    (read : ofItem? (Item.ofJson (reply callId (.error failure) elapsed).packed) = some found) :
    found = .reply callId (.error failure.delivered) elapsed := by
  have fields : (Item.ofJson (.array [.ofNat callId.toNat, packedOutcome (.error failure),
      .ofNat elapsed.toNat])).fields? nestingBudget ["call_id", "outcome", "remote_elapsed_ns"] = _ :=
    fields?_array (by decide) rfl
  rw [packed, ofItem?, variant?_object 3 rfl] at read
  simp only [reply?, fields, List.map_cons, List.map_nil, uint64?_ofNat] at read
  rw [packedOutcome, outcome?, variant?_object 1 rfl] at read
  cases arrived : failure? (nestingBudget - 1) (Item.ofJson (packedFailure failure)) with
  | none => simp [arrived] at read
  | some inner =>
      rw [eq_delivered_of_failure? valid (by decide) arrived] at arrived
      simp only [arrived] at read
      exact (Option.some.inj read).symm

theorem eq_delivered_of_ofBytes? {failure : Failure} (valid : failure.Valid) {callId elapsed : UInt64}
    (short : (reply callId (.error failure) elapsed).bytes.length < Bytes.capacity 4) {found : Message}
    (read : ofBytes? (reply callId (.error failure) elapsed).bytes = some found) :
    found = .reply callId (.error failure.delivered) elapsed := by
  have proper : (reply callId (.error failure) elapsed).Valid := valid
  have item := Item.read_bytes (packed_valid proper) short []
  rw [List.append_nil] at item
  change Item.read (reply callId (.error failure) elapsed).bytes = _ at item
  rw [ofBytes?, item] at read
  exact eq_delivered_of_ofItem? valid read

end Message

namespace Frame

variable {m found : Message} {rest : Bytes} (short : m.bytes.length < Bytes.capacity 4)

include short

theorem ofBytes?_of_read_write {rest' : Bytes} (isRead : read (write m ++ rest) = .ok (found, rest')) :
    Message.ofBytes? m.bytes = some found := by
  obtain ⟨field, isField, length⟩ := field_write short rest
  cases scanned : scan (write m ++ rest) with
  | message message behind =>
      rw [read, scanned] at isRead
      cases isRead
      obtain ⟨field', body, isField', length', -, decoded⟩ := scan_eq_message_iff.mp scanned
      have widths : field'.length = field.length := isField'.width.trans isField.width.symm
      obtain ⟨rfl, same⟩ := List.append_inj (isField'.split.symm.trans isField.split) widths
      obtain ⟨rfl, -⟩ := List.append_inj same (length'.trans length)
      exact decoded
  | flawed | partialLength | partialBody =>
      rw [read, scanned] at isRead
      cases isRead

theorem ofBytes?_of_decode_write {width : Nat}
    (decoded : decode (write m ++ rest) = .ok (found, width)) :
    Message.ofBytes? m.bytes = some found := by
  obtain ⟨field, isField, length⟩ := field_write short rest
  rw [decode_of_field isField, length, Bytes.take?_append] at decoded
  cases message : Message.ofBytes? m.bytes with
  | none => simp [message] at decoded
  | some message =>
      simp only [message, Except.ok.injEq, Prod.mk.injEq] at decoded
      rw [decoded.1]

end Frame

namespace Fault

open Json.Decoder

variable {fault : Fault}

theorem failure_ofFault_valid (portable : fault.Portable) : (Refusal.ofFault fault).failure.Valid :=
  fault.toJson_normalized_valid portable

theorem delivered_ofFault (fault : Fault) :
    (Refusal.ofFault fault).failure.delivered = (Refusal.ofFault fault).failure := by
  cases fault <;> rfl

theorem ofFailure_of_undecodable {failure : Failure}
    (foreign : ∀ typeName message payload, failure = .exception typeName message (some payload) →
      ∀ fault, decoder payload ≠ .ok fault) : ofFailure failure = .remote failure := by
  cases failure with
  | unreachable | timeout => rfl
  | exception typeName message payload =>
      cases payload with
      | none => rfl
      | some payload =>
          cases decoded : decoder payload with
          | ok fault => exact absurd decoded (foreign typeName message payload rfl fault)
          | error e => simp only [ofFailure, decoded]

/-- The caller of a handler that fails with a fault is told of a failure from which it recovers just
that fault, in the same process or from the frame of a reply. A failure that does not spell out a fault
is kept as it is. -/
theorem recovered_by_caller (portable : fault.Portable) :
    let refusal := Refusal.ofFault fault
    ofFailure refusal.failure = fault ∧
      (∀ {σ : Type} [Servant σ] (d : Dispatcher σ) (target : Target) (method : String)
          (args : List Json) (place : Dispatcher.Place) (servant after : σ) (millis : Nat),
        d.resolve target method = .ok (place, servant) →
        Servant.perform servant method args = some ⟨.answered (.error refusal), after, millis⟩ →
        d.dispatch target method args =
            some ⟨.answered (.error refusal), d.replace after place, millis⟩ ∧
          ∀ timeout : Option UInt64, (∀ limit, timeout = some limit → millis < limit.toNat) →
            Channel.inProcess.invoke timeout target method args d =
              some (.error refusal.failure, d.replace after place)) ∧
      (∀ (callId elapsed : UInt64) (rest : Bytes),
        let reply := Message.reply callId (.error refusal.failure) elapsed
        reply.bytes.length < Bytes.capacity 4 →
          (∀ found rest', Frame.read (Frame.write reply ++ rest) = .ok (found, rest') →
            found = reply) ∧
          (∀ found length, Frame.decode (Frame.write reply ++ rest) = .ok (found, length) →
            found = reply) ∧
          (reply.nesting < Message.nestingBudget → reply.bytes.length ≤ Frame.maxBody →
            Frame.read (Frame.write reply ++ rest) = .ok (reply, rest) ∧
              Frame.decode (Frame.write reply ++ rest) = .ok (reply, (Frame.write reply).length))) ∧
      ∀ failure : Failure,
        (∀ typeName message payload, failure = .exception typeName message (some payload) →
          ∀ fault, decoder payload ≠ .ok fault) →
        ofFailure failure = .remote failure := by
  intro refusal
  have valid := failure_ofFault_valid portable
  have unchanged := delivered_ofFault fault
  refine ⟨ofFailure_ofFault portable, ?_, ?_, fun failure foreign => ofFailure_of_undecodable foreign⟩
  · intro σ _ d target method args place servant after millis resolved performed
    have dispatched : d.dispatch target method args =
        some ⟨.answered (.error refusal), d.replace after place, millis⟩ := by
      rw [Dispatcher.dispatch, resolved]
      simp only [performed, Option.map_some, Reaction.map]
    exact ⟨dispatched, fun timeout inTime => Channel.dispatchWithin_of_answer dispatched inTime⟩
  · intro callId elapsed rest reply short
    have same {found : Message} (read : Message.ofBytes? reply.bytes = some found) :
        found = reply := by
      rw [Message.eq_delivered_of_ofBytes? valid short read, unchanged]
    refine ⟨?_, ?_, ?_⟩
    · exact fun found rest' isRead => same (Frame.ofBytes?_of_read_write short isRead)
    · exact fun found length decoded => same (Frame.ofBytes?_of_decode_write short decoded)
    · intro nested small
      have sendable : reply.Sendable := ⟨valid, nested, small⟩
      have arrives : reply.delivered = reply := by
        rw [Message.delivered, Outcome.delivered, Except.mapError, unchanged]
      constructor
      · rw [Frame.read_write sendable, arrives]
      · rw [Frame.decode_write sendable, arrives]

/-- A fault that holds another one, whose form would be taken for a fault by itself. -/
theorem recovered_by_caller_nested :
    let inner : Fault := .lockNotHeld "B" "L" "p"
    let outer : Fault := .remote (Refusal.ofFault inner).failure
    let reply := Message.reply 7 (.error (Refusal.ofFault outer).failure) 1500
    let d := Dispatcher.empty.registerClass Host.className
      (Host.empty.replaceBoard (.fresh "B" ⟨[], ["L"]⟩))
    outer.Portable ∧ ofFailure (Refusal.ofFault outer).failure = outer ∧
      Frame.decode (Frame.write reply ++ [0xff]) = .ok (reply, (Frame.write reply).length) ∧
      (∃ failure, Channel.inProcess.invoke none (.ofClass Host.className) "unlock"
          [.string "B", .string "L", .string "p"] d = some (.error failure, d) ∧
        ofFailure failure = inner) ∧
      ofFailure (.exception "LockNotHeld" "L" (some (.string "LockNotHeld"))) =
        .remote (.exception "LockNotHeld" "L" (some (.string "LockNotHeld"))) := by
  intro inner outer reply d
  have innerPortable : inner.Portable := trivial
  have portable : outer.Portable := ⟨inner.toJson_normalized_valid innerPortable, by decide⟩
  obtain ⟨recovered, -, framed, foreign⟩ := recovered_by_caller portable
  obtain ⟨innerRecovered, dispatched, -⟩ := recovered_by_caller innerPortable
  have short : reply.bytes.length < Bytes.capacity 4 := by decide +kernel
  obtain ⟨-, decoded⟩ := (framed 7 1500 [0xff] short).2.2 (by decide) (by decide +kernel)
  have invoked := (dispatched d (.ofClass Host.className) "unlock"
    [.string "B", .string "L", .string "p"] (.ofClass Host.className) _ _ 0 rfl rfl).2 none nofun
  refine ⟨portable, recovered, decoded, ⟨_, invoked, innerRecovered⟩, foreign _ ?_⟩
  intro typeName message payload same fault
  cases same
  simp [decoder, oneOf, chooseCase, List.lookup, Case.record]

end Fault

end Coordination
