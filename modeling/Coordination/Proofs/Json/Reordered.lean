import Coordination.Proofs.Json.Normalized

/-!
Values up to the order of members. Two values that differ only in it have one normal form, and every
value is its normal form up to it.
-/

namespace Coordination.Json

/-- Values that differ in the order of members and in nothing else, at whatever depth. -/
inductive Reordered : Json → Json → Prop
  | same (v : Json) : Reordered v v
  | members {members others : List (String × Json)} (perm : members.Perm others)
      (distinct : (members.map Prod.fst).Nodup) : Reordered (.object members) (.object others)
  | inItem {earlier later : List Json} {v w : Json} (inside : Reordered v w) :
      Reordered (.array (earlier ++ v :: later)) (.array (earlier ++ w :: later))
  | inMember {earlier later : List (String × Json)} {key : String} {v w : Json}
      (inside : Reordered v w) :
      Reordered (.object (earlier ++ (key, v) :: later)) (.object (earlier ++ (key, w) :: later))
  | trans {u v w : Json} (first : Reordered u v) (second : Reordered v w) : Reordered u w

/-! Values whose members are given in any order. -/

mutual
/-- As valid values, but for the order of members; each key stands once. -/
def Distinct : Json → Prop
  | .null | .bool _ | .string _ => True
  | .integer n => FitsWord n
  | .real x => x.isFinite = true
  | .array items => DistinctItems items
  | .object members => (members.map Prod.fst).Nodup ∧ DistinctMembers members

def DistinctItems : List Json → Prop
  | [] => True
  | x :: xs => Distinct x ∧ DistinctItems xs

def DistinctMembers : List (String × Json) → Prop
  | [] => True
  | (_, x) :: xs => Distinct x ∧ DistinctMembers xs
end

/-! Normal forms. -/

theorem normalizedItems_eq_map (items : List Json) : normalizedItems items = items.map normalized := by
  induction items with
  | nil => rfl
  | cons x xs induction => rw [normalizedItems, induction, List.map_cons]

theorem normalizedMembers_eq_map (members : List (String × Json)) :
    normalizedMembers members = members.map fun member => (member.1, member.2.normalized) := by
  induction members with
  | nil => rfl
  | cons member xs induction => rw [normalizedMembers, induction, List.map_cons]

theorem keys_normalizedMembers (members : List (String × Json)) :
    (normalizedMembers members).map Prod.fst = members.map Prod.fst := by
  rw [normalizedMembers_eq_map, List.map_map]
  rfl

mutual
theorem valid_normalized : ∀ v : Json, v.Distinct → v.normalized.Valid
  | .null, _ | .bool _, _ | .string _, _ => by simp only [normalized, Valid]
  | .integer _, fits => by simpa only [normalized, Valid]
  | .real _, finite => by simpa only [normalized, Valid]
  | .array items, distinct => by
      simpa only [normalized, Valid] using validItems_normalizedItems items distinct
  | .object members, distinct => by
      rw [normalized]
      apply valid_ofEntries (validMembers_normalizedMembers members distinct.2)
      rw [keys_normalizedMembers]
      exact distinct.1

theorem validItems_normalizedItems : ∀ items : List Json, DistinctItems items →
    ValidItems (normalizedItems items)
  | [], _ => trivial
  | x :: xs, distinct =>
      ⟨valid_normalized x distinct.1, validItems_normalizedItems xs distinct.2⟩

theorem validMembers_normalizedMembers : ∀ members : List (String × Json),
    DistinctMembers members → ValidMembers (normalizedMembers members)
  | [], _ => trivial
  | (_, x) :: xs, distinct =>
      ⟨valid_normalized x distinct.1, validMembers_normalizedMembers xs distinct.2⟩
end

theorem ofEntries_eq_of_perm {members others : List (String × Json)} (perm : members.Perm others)
    (distinct : (members.map Prod.fst).Nodup) : ofEntries members = ofEntries others := by
  have distinctOthers := (perm.map Prod.fst).nodup_iff.mp distinct
  apply eq_of_ascending Prod.fst (ascending_ofEntries members) (ascending_ofEntries others)
  intro member
  rw [(ofEntries_perm distinct).mem_iff, perm.mem_iff, (ofEntries_perm distinctOthers).mem_iff]

theorem Reordered.normalized_eq {v w : Json} (reordered : v.Reordered w) :
    v.normalized = w.normalized := by
  induction reordered with
  | same v => rfl
  | members perm distinct =>
      rw [normalized, normalized, normalizedMembers_eq_map, normalizedMembers_eq_map]
      refine congrArg Json.object (ofEntries_eq_of_perm (perm.map _) ?_)
      rwa [← normalizedMembers_eq_map, keys_normalizedMembers]
  | inItem inside induction =>
      simp only [normalized, normalizedItems_eq_map, List.map_append, List.map_cons, induction]
  | inMember inside induction =>
      simp only [normalized, normalizedMembers_eq_map, List.map_append, List.map_cons, induction]
  | trans first second induction induction' => exact induction.trans induction'

theorem Reordered.symm {v w : Json} (reordered : v.Reordered w) : w.Reordered v := by
  induction reordered with
  | same v => exact .same v
  | members perm distinct => exact .members perm.symm ((perm.map Prod.fst).nodup_iff.mp distinct)
  | inItem inside induction => exact .inItem induction
  | inMember inside induction => exact .inMember induction
  | trans first second induction induction' => exact .trans induction' induction

mutual
theorem reordered_normalized : ∀ v : Json, v.Distinct → v.Reordered v.normalized
  | .null, _ | .bool _, _ | .string _, _ | .integer _, _ | .real _, _ => by
      simpa only [normalized] using .same _
  | .array items, distinct => by
      rw [normalized]
      exact reordered_normalizedItems items distinct []
  | .object members, distinct => by
      have inside := reordered_normalizedMembers members distinct.2 []
      have keys : ((normalizedMembers members).map Prod.fst).Nodup := by
        rw [keys_normalizedMembers]
        exact distinct.1
      rw [normalized]
      exact inside.trans (.members (ofEntries_perm keys).symm keys)

/-- The items after the first ones are put in their normal forms one by one. -/
theorem reordered_normalizedItems : ∀ items : List Json, DistinctItems items →
    ∀ earlier, Reordered (.array (earlier ++ items)) (.array (earlier ++ normalizedItems items))
  | [], _, _ => .same _
  | x :: xs, distinct, earlier => by
      have head : Reordered (.array (earlier ++ x :: xs)) (.array (earlier ++ x.normalized :: xs)) :=
        .inItem (reordered_normalized x distinct.1)
      have rest := reordered_normalizedItems xs distinct.2 (earlier ++ [x.normalized])
      rw [List.append_assoc, List.append_assoc] at rest
      exact head.trans rest

theorem reordered_normalizedMembers : ∀ members : List (String × Json), DistinctMembers members →
    ∀ earlier, Reordered (.object (earlier ++ members))
      (.object (earlier ++ normalizedMembers members))
  | [], _, _ => .same _
  | (k, x) :: xs, distinct, earlier => by
      have head : Reordered (.object (earlier ++ (k, x) :: xs))
          (.object (earlier ++ (k, x.normalized) :: xs)) :=
        .inMember (reordered_normalized x distinct.1)
      have rest := reordered_normalizedMembers xs distinct.2 (earlier ++ [(k, x.normalized)])
      rw [List.append_assoc, List.append_assoc] at rest
      exact head.trans rest
end

/-- Values have one normal form exactly if they differ in the order of members only. -/
theorem normalized_eq_iff {v w : Json} (distinct : v.Distinct) (alsoDistinct : w.Distinct) :
    v.normalized = w.normalized ↔ v.Reordered w := by
  constructor
  · intro same
    have toNormal := reordered_normalized v distinct
    rw [same] at toNormal
    exact toNormal.trans (reordered_normalized w alsoDistinct).symm
  · exact Reordered.normalized_eq

theorem Reordered.eq_of_valid {v w : Json} (reordered : v.Reordered w) (valid : v.Valid)
    (alsoValid : w.Valid) : v = w := by
  rw [← v.normalized_of_valid valid, reordered.normalized_eq, w.normalized_of_valid alsoValid]

end Coordination.Json
