import Coordination.Proofs.MessagePack.Item
import Coordination.Remote.Message.Delivered

/-! Messages are read back from their bytes as they are to be delivered. -/

namespace Coordination.Message

open MessagePack
open Json (valid_variant valid_ofNat)

/-! Fields. -/

theorem variant?_object {names : List String} {name : String} (index : Nat)
    (found : names.findIdx? (· == name) = some index) (v : Json) :
    (Item.ofJson (.object [(name, v)])).variant? names = some (index, Item.ofJson v) := by
  simp [Item.ofJson, Item.ofMembers, Item.variant?, Item.position?, found]

theorem fields?_array {budget : Nat} (inside : 1 < budget) {names : List String} {values : List Json}
    (complete : values.length = names.length) :
    (Item.ofJson (.array values)).fields? budget names =
      some (values.map fun v => some (Item.ofJson v), budget - 1) := by
  have items (values : List Json) : Item.ofItems values = values.map Item.ofJson := by
    induction values with
    | nil => rfl
    | cons v values induction => rw [Item.ofItems, induction, List.map_cons]
  have descended : Item.descend? budget = some (budget - 1) := if_neg (by omega)
  simp only [Item.ofJson, items, Item.fields?, descended, List.length_map, if_pos complete, List.map_map]
  rfl

theorem ofJson_ofNat (n : Nat) : Item.ofJson (.ofNat n) = .unsigned n := by
  simp [Json.ofNat, Item.ofJson]

theorem uint32?_ofNat (n : UInt32) : uint32? (Item.ofJson (.ofNat n.toNat)) = some n := by
  simp [uint32?, ofJson_ofNat, Item.natural?, n.toNat_lt]

theorem uint64?_ofNat (n : UInt64) : uint64? (Item.ofJson (.ofNat n.toNat)) = some n := by
  simp [uint64?, ofJson_ofNat, Item.natural?, n.toNat_lt]

theorem text?_string (s : String) : (Item.ofJson (.string s)).text? = some s := by
  simp only [Item.ofJson, Item.text?]

theorem target?_packedTarget (target : Target) :
    target? (Item.ofJson (packedTarget target)) = some target := by
  cases target with
  | ofClass name =>
      rw [packedTarget, Target.toJson, target?, variant?_object 0 rfl]
      simp only [text?_string, Option.map_some]
  | object id =>
      rw [packedTarget, Target.toJson, target?, variant?_object 1 rfl]
      simp only [text?_string, Option.map_some]

/-- Only null is written as nil. -/
theorem payload?_ofJson {v : Json} (present : v ≠ .null) (budget : Nat) :
    payload? budget (some (Item.ofJson v)) = ((Item.ofJson v).json? budget).map some := by
  cases v with
  | null => contradiction
  | integer n =>
      rw [Item.ofJson]
      split <;> rfl
  | bool | real | string | array | object =>
      rw [Item.ofJson]
      rfl

theorem payload?_getD {payload : Option Json} {budget : Nat} (valid : ∀ v, payload = some v → v.Valid)
    (nested : ∀ v, payload = some v → v.nesting < budget) :
    payload? budget (some (Item.ofJson (payload.getD .null))) =
      some (if payload = some .null then none else payload) := by
  cases payload with
  | none => simp [payload?, Item.ofJson]
  | some v =>
      by_cases present : v = .null
      · subst present
        simp [payload?, Item.ofJson]
      · rw [Option.getD_some, payload?_ofJson present,
          Item.json?_ofJson v _ (valid v rfl) (nested v rfl), Option.map_some,
          if_neg (by simpa using present)]

theorem delivered_exception (typeName message : String) (payload : Option Json) :
    (Failure.exception typeName message payload).delivered =
      .exception typeName message (if payload = some .null then none else payload) := by
  cases payload with
  | none => rfl
  | some v => cases v <;> simp [Failure.delivered]

theorem failure?_packedFailure {failure : Failure} {budget : Nat} (valid : failure.Valid)
    (nested : failure.nesting < budget) :
    failure? budget (Item.ofJson (packedFailure failure)) = some failure.delivered := by
  cases failure with
  | unreachable reason =>
      have fields : (Item.ofJson (.array [.string reason])).fields? budget ["reason"] = _ :=
        fields?_array nested rfl
      rw [packedFailure, failure?, variant?_object 0 rfl]
      simp only [fields, List.map_cons, List.map_nil, text?_string, Option.map_some, Failure.delivered]
  | timeout afterMs =>
      have fields : (Item.ofJson (.array [.ofNat afterMs.toNat])).fields? budget ["after_ms"] = _ :=
        fields?_array nested rfl
      rw [packedFailure, failure?, variant?_object 2 rfl]
      simp only [fields, List.map_cons, List.map_nil, uint64?_ofNat, Option.map_some, Failure.delivered]
  | exception typeName message payload =>
      have inside : 1 < budget := by
        cases payload with
        | none => exact nested
        | some v => exact Nat.lt_of_le_of_lt (Nat.le_add_left 1 _) nested
      have arrived : payload? (budget - 1) (some (Item.ofJson (payload.getD .null))) =
          some (if payload = some .null then none else payload) := by
        refine payload?_getD ?_ ?_
        · rintro v rfl
          exact valid
        · rintro v rfl
          exact Nat.lt_sub_of_add_lt nested
      have fields : (Item.ofJson (.array [.string typeName, .string message, payload.getD .null])).fields?
          budget ["type_name", "message", "payload"] = _ := fields?_array inside rfl
      rw [packedFailure, failure?, variant?_object 1 rfl, delivered_exception]
      simp only [fields, List.map_cons, List.map_nil, text?_string, arrived]
      rfl

theorem outcome?_packedOutcome {outcome : Outcome} {budget : Nat} (valid : Outcome.Valid outcome)
    (nested : Outcome.nesting outcome < budget) :
    outcome? budget (Item.ofJson (packedOutcome outcome)) = some (Outcome.delivered outcome) := by
  cases outcome with
  | ok v =>
      rw [packedOutcome, outcome?, variant?_object 0 rfl]
      simp only [Item.json?_ofJson v budget valid nested, Option.map_some]
      rfl
  | error failure =>
      rw [packedOutcome, outcome?, variant?_object 1 rfl]
      simp only [failure?_packedFailure valid nested, Option.map_some]
      rfl

theorem args?_array {args : List Json} {budget : Nat} (valid : Json.ValidItems args)
    (nested : Json.itemsNesting args + 1 < budget) :
    args? budget (Item.ofJson (.array args)) = some args := by
  obtain ⟨less, descended, inner⟩ := Item.descend?_of_lt nested
  simp only [Item.ofJson, args?, descended, Item.jsonItems?_ofItems args less valid inner]

/-! Messages. -/

theorem ofItem?_packed {m : Message} (valid : m.Valid) (nested : m.nesting < nestingBudget) :
    ofItem? (Item.ofJson m.packed) = some m.delivered := by
  have inside : 1 < nestingBudget := by decide
  cases m with
  | hello version clientId =>
      have fields : (Item.ofJson (.array [.ofNat version.toNat, .string clientId])).fields?
          nestingBudget ["protocol_version", "client_id"] = _ := fields?_array inside rfl
      rw [packed, ofItem?, variant?_object 0 rfl]
      simp only [hello?, fields, List.map_cons, List.map_nil, uint32?_ofNat, text?_string]
      rfl
  | welcome version nodeId =>
      have fields : (Item.ofJson (.array [.ofNat version.toNat, .string nodeId])).fields?
          nestingBudget ["protocol_version", "node_id"] = _ := fields?_array inside rfl
      rw [packed, ofItem?, variant?_object 1 rfl]
      simp only [welcome?, fields, List.map_cons, List.map_nil, uint32?_ofNat, text?_string]
      rfl
  | invoke callId target method args =>
      have fields : (Item.ofJson (.array [.ofNat callId.toNat, packedTarget target, .string method,
          .array args])).fields? nestingBudget ["call_id", "target", "method", "args"] = _ :=
        fields?_array inside rfl
      have arrived : args? (nestingBudget - 1) (Item.ofJson (.array args)) = some args :=
        args?_array valid (Nat.lt_sub_of_add_lt nested)
      rw [packed, ofItem?, variant?_object 2 rfl]
      simp only [invoke?, fields, List.map_cons, List.map_nil, uint64?_ofNat, target?_packedTarget,
        text?_string, arrived]
      rfl
  | reply callId outcome elapsed =>
      have fields : (Item.ofJson (.array [.ofNat callId.toNat, packedOutcome outcome,
          .ofNat elapsed.toNat])).fields? nestingBudget ["call_id", "outcome", "remote_elapsed_ns"] = _ :=
        fields?_array inside rfl
      have arrived : outcome? (nestingBudget - 1) (Item.ofJson (packedOutcome outcome)) = _ :=
        outcome?_packedOutcome valid (Nat.lt_sub_of_add_lt nested)
      rw [packed, ofItem?, variant?_object 3 rfl]
      simp only [reply?, fields, List.map_cons, List.map_nil, uint64?_ofNat, arrived]
      rfl
  | error nodeId reason =>
      have fields : (Item.ofJson (.array [.string nodeId, .string reason])).fields?
          nestingBudget ["node_id", "error"] = _ := fields?_array inside rfl
      rw [packed, ofItem?, variant?_object 4 rfl]
      simp only [error?, fields, List.map_cons, List.map_nil, text?_string]
      rfl

/-! What is packed is a proper value. -/

theorem packedTarget_valid (target : Target) : (packedTarget target).Valid := by
  cases target with
  | ofClass | object => exact valid_variant trivial

theorem packedFailure_valid {failure : Failure} (valid : failure.Valid) :
    (packedFailure failure).Valid := by
  cases failure with
  | unreachable reason => exact valid_variant ⟨trivial, trivial⟩
  | timeout afterMs => exact valid_variant ⟨valid_ofNat afterMs.toNat_lt, trivial⟩
  | exception typeName message payload =>
      have payloadValid : (payload.getD .null).Valid := by
        cases payload with
        | none => trivial
        | some v => exact valid
      exact valid_variant ⟨trivial, trivial, payloadValid, trivial⟩

theorem packedOutcome_valid {outcome : Outcome} (valid : Outcome.Valid outcome) :
    (packedOutcome outcome).Valid := by
  cases outcome with
  | ok v => exact valid_variant valid
  | error failure => exact valid_variant (packedFailure_valid valid)

theorem packed_valid {m : Message} (valid : m.Valid) : m.packed.Valid := by
  cases m with
  | hello version clientId | welcome version nodeId =>
      have word := version.toNat_lt
      exact valid_variant ⟨valid_ofNat (by omega), trivial, trivial⟩
  | invoke callId target method args =>
      exact valid_variant
        ⟨valid_ofNat callId.toNat_lt, packedTarget_valid target, trivial, valid, trivial⟩
  | reply callId outcome elapsed =>
      exact valid_variant ⟨valid_ofNat callId.toNat_lt, packedOutcome_valid valid,
        valid_ofNat elapsed.toNat_lt, trivial⟩
  | error nodeId reason => exact valid_variant ⟨trivial, trivial, trivial⟩

/-- A message that can be sent is read back from its bytes, whatever follows them. -/
theorem ofBytes?_bytes {m : Message} (sendable : m.Sendable) (rest : Bytes) :
    ofBytes? (m.bytes ++ rest) = some m.delivered := by
  have short : m.bytes.length < 0x100000000 := Nat.lt_of_le_of_lt sendable.short (by decide)
  have read := Item.read_bytes (packed_valid sendable.valid) short rest
  change Item.read (m.bytes ++ rest) = _ at read
  rw [ofBytes?, read]
  exact ofItem?_packed sendable.valid sendable.nested

/-! Calls and replies are about as long under any number. -/

theorem length_naturalBytes_le (n : Nat) : (naturalBytes n).length ≤ 9 := by
  unfold naturalBytes
  split_ifs <;> simp [head]

theorem length_bytes_numbered_le (kind : String) (n : Nat) (fields : List Json) :
    (MessagePack.bytes (.object [(kind, .array (.ofNat n :: fields))])).length ≤
      (MessagePack.bytes (.object [(kind, .array (.ofNat 0 :: fields))])).length + 8 := by
  have natural (n : Nat) : MessagePack.bytes (.ofNat n) = naturalBytes n := by
    rw [Json.ofNat, MessagePack.bytes, integerBytes, if_neg (by omega), Int.natAbs_natCast]
  have least : (naturalBytes 0).length = 1 := rfl
  have most := length_naturalBytes_le n
  simp only [MessagePack.bytes, memberBytes, itemBytes, natural, List.length_append, List.length_cons]
  omega

theorem Sendable.invoke {target : Target} {method : String} {args : List Json}
    (valid : Json.ValidItems args) (nested : Json.itemsNesting args + 2 < nestingBudget)
    (short : (bytes (.invoke 0 target method args)).length + 8 ≤ Frame.maxBody) (callId : UInt64) :
    (Message.invoke callId target method args).Sendable where
  valid := valid
  nested := nested
  short := by
    have numbered := length_bytes_numbered_le "Invoke" callId.toNat
      [packedTarget target, .string method, .array args]
    exact numbered.trans short

theorem Sendable.reply {outcome : Outcome} {elapsed : UInt64} (valid : Outcome.Valid outcome)
    (nested : Outcome.nesting outcome + 1 < nestingBudget)
    (short : (bytes (.reply 0 outcome elapsed)).length + 8 ≤ Frame.maxBody) (callId : UInt64) :
    (Message.reply callId outcome elapsed).Sendable where
  valid := valid
  nested := nested
  short := by
    have numbered := length_bytes_numbered_le "Reply" callId.toNat
      [packedOutcome outcome, .ofNat elapsed.toNat]
    exact numbered.trans short

end Coordination.Message
