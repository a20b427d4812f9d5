import Coordination.Proofs.Json.Decoder
import Coordination.Proofs.Json.Normalized
import Coordination.Remote.Channel

/-!
A fault survives a remote call: decoding its JSON form gives it back, and so its caller recovers it
from the failure that arrives.
-/

namespace Coordination

open Json Decoder

/-- The failure has a JSON form of its own: a payload that is there is a proper value and not null. -/
def Failure.Portable : Failure → Prop
  | .exception _ _ (some payload) => payload.Valid ∧ payload ≠ .null
  | _ => True

def Fault.Portable : Fault → Prop
  | .remote failure => failure.Portable
  | _ => True

namespace Json

section Members

variable {members : List (String × Json)} (valid : ValidMembers members)
  (nodup : (members.map Prod.fst).Nodup)

include valid nodup

theorem normalized_object_valid : (Json.object members).normalized.Valid := by
  rw [normalized, normalizedMembers_of_valid members valid]
  exact valid_ofEntries valid nodup

theorem Decoder.Case.record_normalized {α : Type} {r : Record α} {a : α}
    (decoded : r.ofMembers members = .ok a) :
    Case.record r (some (Json.object members).normalized) = .ok a := by
  rw [normalized, normalizedMembers_of_valid members valid]
  exact Record.ofMembers_eq_ok_of_perm (ofEntries_perm nodup).symm nodup decoded

end Members

theorem valid_uint16 (n : UInt16) : (Json.ofNat n.toNat).Valid :=
  valid_ofNat (Nat.lt_trans n.toNat_lt (by decide))

theorem valid_uint64 (n : UInt64) : (Json.ofNat n.toNat).Valid := valid_ofNat n.toNat_lt

end Json

namespace Failure

variable {failure : Failure}

theorem payload_valid {typeName message : String} {payload : Option Json}
    (portable : Portable (.exception typeName message payload)) : (payload.getD .null).Valid := by
  cases payload with
  | none => trivial
  | some v => exact portable.1

theorem toJson_normalized_valid (portable : failure.Portable) : failure.toJson.normalized.Valid := by
  refine valid_variant ?_
  cases failure with
  | unreachable reason => exact normalized_object_valid ⟨trivial, trivial⟩ (by simp)
  | timeout afterMs => exact normalized_object_valid ⟨valid_uint64 afterMs, trivial⟩ (by simp)
  | exception typeName message payload =>
      exact normalized_object_valid ⟨trivial, trivial, payload_valid portable, trivial⟩ (by simp)

theorem decoder_normalized (portable : failure.Portable) :
    decoder failure.toJson.normalized = .ok failure := by
  cases failure with
  | unreachable reason =>
      refine Case.record_normalized ?_ (by simp) (by simp [Record.ofMembers])
      exact ⟨trivial, trivial⟩
  | timeout afterMs =>
      refine Case.record_normalized ?_ (by simp) (by simp [Record.ofMembers])
      exact ⟨valid_uint64 afterMs, trivial⟩
  | exception typeName message payload =>
      have decoded : option json (payload.getD .null) = .ok payload := by
        cases payload with
        | none => rfl
        | some v => exact option_of_ne_null portable.2
      refine Case.record_normalized ?_ (by simp) (by simp [Record.ofMembers, List.lookup, decoded])
      exact ⟨trivial, trivial, payload_valid portable, trivial⟩

end Failure

namespace Fault

variable {fault : Fault}

theorem toJson_normalized_valid (portable : fault.Portable) : fault.toJson.normalized.Valid := by
  refine valid_variant ?_
  cases fault with
  | remote failure => exact failure.toJson_normalized_valid portable
  | unknownStatisticsType | descriptorMismatch | invalidConfiguration | codec => trivial
  | unregisteredCounter board id =>
      exact normalized_object_valid ⟨trivial, valid_uint16 id, trivial⟩ (by simp)
  | lockNotAcquired board name timeoutMs =>
      exact normalized_object_valid ⟨trivial, trivial, valid_uint64 timeoutMs, trivial⟩ (by simp)
  | metricKindMismatch | lockNotHeld | unknownMetric | unknownCounterName | unknownLock
  | schemaMismatch | unknownBoard =>
      exact normalized_object_valid (by simp [ValidMembers, Valid]) (by simp)

theorem decoder_normalized (portable : fault.Portable) :
    decoder fault.toJson.normalized = .ok fault := by
  cases fault with
  | remote failure => exact congrArg (remote <$> ·) (failure.decoder_normalized portable)
  | unknownStatisticsType | descriptorMismatch | invalidConfiguration | codec => rfl
  | unregisteredCounter board id =>
      refine Case.record_normalized ?_ (by simp) (by simp [Record.ofMembers, textField, List.lookup])
      exact ⟨trivial, valid_uint16 id, trivial⟩
  | lockNotAcquired board name timeoutMs =>
      refine Case.record_normalized ?_ (by simp) (by simp [Record.ofMembers, textField, List.lookup])
      exact ⟨trivial, trivial, valid_uint64 timeoutMs, trivial⟩
  | metricKindMismatch | lockNotHeld | unknownMetric | unknownCounterName | unknownLock
  | schemaMismatch | unknownBoard =>
      exact Case.record_normalized (by simp [ValidMembers, Valid]) (by simp)
        (by simp [Record.ofMembers, textField, List.lookup])

/-- The caller of a servant that fails with a fault recovers that fault. -/
theorem ofFailure_ofFault (portable : fault.Portable) :
    ofFailure (Refusal.ofFault fault).failure = fault := by
  simp only [ofFailure, Refusal.failure, Refusal.ofFault, decoder_normalized portable]

end Fault

end Coordination
