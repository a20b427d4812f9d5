import Coordination.Proofs.Json.Text
import Coordination.Proofs.Table

/-!
Normal forms put members in ascending order, and the values that programs exchange are in theirs.
-/

namespace Coordination.Json

theorem ofEntries_of_ascending {members : List (String × Json)} (ascending : Ascending members) :
    ofEntries members = members :=
  foldl_insertEntry_of_ascending (List.nil_append members ▸ ascending)

mutual
theorem normalized_of_valid : ∀ v : Json, v.Valid → v.normalized = v
  | .null, _ | .bool _, _ | .integer _, _ | .real _, _ | .string _, _ => by simp only [normalized]
  | .array items, valid => by
      simp only [normalized, normalizedItems_of_valid items valid]
  | .object members, valid => by
      simp only [normalized, normalizedMembers_of_valid members valid.2,
        ofEntries_of_ascending valid.1]

theorem normalizedItems_of_valid : ∀ items : List Json, ValidItems items →
    normalizedItems items = items
  | [], _ => rfl
  | x :: xs, valid =>
      congrArg₂ List.cons (normalized_of_valid x valid.1) (normalizedItems_of_valid xs valid.2)

theorem normalizedMembers_of_valid : ∀ members : List (String × Json), ValidMembers members →
    normalizedMembers members = members
  | [], _ => rfl
  | (k, x) :: xs, valid =>
      congrArg₂ List.cons (congrArg (k, ·) (normalized_of_valid x valid.1))
        (normalizedMembers_of_valid xs valid.2)
end

/-! Proper values. -/

theorem valid_variant {name : String} {v : Json} (valid : v.Valid) : (Json.object [(name, v)]).Valid :=
  ⟨List.pairwise_singleton _ _, valid, trivial⟩

theorem valid_ofNat {n : Nat} (word : n < 0x10000000000000000) : (Json.ofNat n).Valid := by
  constructor <;> omega

theorem validMembers_iff {members : List (String × Json)} :
    ValidMembers members ↔ ∀ member ∈ members, member.2.Valid := by
  induction members with
  | nil => simp [ValidMembers]
  | cons member rest induction => rw [ValidMembers, induction, List.forall_mem_cons]

theorem foldl_insertEntry_perm {sorted members : List (String × Json)}
    (nodup : ((sorted ++ members).map Prod.fst).Nodup) :
    (members.foldl (fun sorted member => insertEntry member.1 member.2 sorted) sorted).Perm
      (sorted ++ members) := by
  induction members generalizing sorted with
  | nil => rw [List.append_nil]; exact .refl _
  | cons head rest induction =>
      have moved : (sorted ++ head :: rest).Perm (head :: sorted ++ rest) := List.perm_middle
      have nodupMoved := (moved.map Prod.fst).nodup_iff.mp nodup
      have absent : ∀ entry ∈ sorted, compare head.1 entry.1 ≠ .eq := by
        intro entry member same
        have fresh := (List.nodup_cons.mp nodupMoved).1
        refine fresh (List.mem_map.mpr ⟨entry, List.mem_append_left _ member, ?_⟩)
        exact (Std.LawfulEqCmp.eq_of_compare same).symm
      have inserted : (insertEntry head.1 head.2 sorted ++ rest).Perm (head :: sorted ++ rest) :=
        (insertEntry_perm absent).append_right rest
      have nodupInserted := (inserted.map Prod.fst).nodup_iff.mpr nodupMoved
      exact (induction nodupInserted).trans (inserted.trans moved.symm)

theorem ofEntries_perm {members : List (String × Json)} (nodup : (members.map Prod.fst).Nodup) :
    (ofEntries members).Perm members :=
  foldl_insertEntry_perm (List.nil_append members ▸ nodup)

theorem ascending_ofEntries (members : List (String × Json)) : Ascending (ofEntries members) :=
  List.foldlRecOn members _ List.Pairwise.nil fun _ ascending member _ =>
    ascending_insertEntry member.1 member.2 ascending

theorem valid_ofEntries {members : List (String × Json)} (valid : ValidMembers members)
    (nodup : (members.map Prod.fst).Nodup) : (Json.object (ofEntries members)).Valid := by
  refine ⟨ascending_ofEntries members, validMembers_iff.mpr ?_⟩
  intro member inside
  exact validMembers_iff.mp valid member ((ofEntries_perm nodup).mem_iff.mp inside)

end Coordination.Json
