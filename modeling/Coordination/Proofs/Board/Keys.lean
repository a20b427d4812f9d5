import Coordination.Proofs.Board.Entries
import Coordination.Proofs.Json.Reordered

/-!
Keys of the shared map. They have one text exactly if they are one value, so that no two of them ever
share an entry.
-/

namespace Coordination

variable {k l : Json}

theorem keyValue_of_distinct (distinct : k.Distinct) : keyValue k = k.normalized := by
  rw [keyValue, k.normalized.plain_of_valid (k.valid_normalized distinct)]

theorem keyText_eq_iff_reordered (distinct : k.Distinct) (alsoDistinct : l.Distinct) :
    keyText k = keyText l ↔ k.Reordered l := by
  rw [keyText_eq_iff, keyValue_of_distinct distinct, keyValue_of_distinct alsoDistinct,
    Json.normalized_eq_iff distinct alsoDistinct]

/-- Keys are filed under one text exactly if they differ in the order of members only; those that list
their members in ascending order are then equal. What is put under a key is found under it, and leaves
what is found under every other as it was. -/
theorem keys_told_apart (distinct : k.Distinct) (alsoDistinct : l.Distinct) :
    (keyText k = keyText l ↔ k.Reordered l) ∧
      (k.Valid → l.Valid → (keyText k = keyText l ↔ k = l)) ∧
      (∀ members others, k = .object members → l = .object others → members.Perm others →
        keyText k = keyText l) ∧
      ∀ (owner : String) (wait : Option UInt64) (b : Board) (value : Json), ∃ after,
        (Operation.put k value).onBoard owner wait b = some (.ok (.done, after)) ∧
        (k.Reordered l →
          (Operation.get l).onBoard owner wait after = some (.ok (.found (some value), after)) ∧
          (Operation.containsKey l).onBoard owner wait after = some (.ok (.truth true, after))) ∧
        (¬ k.Reordered l → ∀ operation ∈ [Operation.get l, .containsKey l],
          (operation.onBoard owner wait after).map (Prod.fst <$> ·) =
            (operation.onBoard owner wait b).map (Prod.fst <$> ·)) := by
  have texts := keyText_eq_iff_reordered distinct alsoDistinct
  refine ⟨texts, ?_, ?_, ?_⟩
  · intro valid alsoValid
    rw [texts]
    exact ⟨fun reordered => reordered.eq_of_valid valid alsoValid, fun same => same ▸ .same k⟩
  · rintro members others rfl rfl perm
    exact texts.mpr (.members perm distinct.1)
  · intro owner wait b value
    refine ⟨_, rfl, ?_, ?_⟩
    · intro reordered
      have filed : (b.put (keyText k) value).2.entries.get? (keyText l) = some value := by
        rw [← texts.mpr reordered]
        exact Entries.get?_put_self b.entries (keyText k) value
      simp only [Operation.onBoard, Operation.seen, Table.contains, filed, Option.isSome_some,
        and_self]
    · intro apart operation member
      have kept : (b.put (keyText k) value).2.entries.get? (keyText l) =
          b.entries.get? (keyText l) := by
        have other : keyText l ≠ keyText k := fun same => apart (texts.mp same.symm)
        exact (Table.get?_insert b.entries (keyText k) (keyText l) value).trans (if_neg other)
      rcases List.mem_pair.mp member with rfl | rfl <;>
        simp only [Operation.onBoard, Operation.seen, Table.contains, kept] <;> rfl

/-- The order of members makes no difference to a key, and one and one point nothing are two. -/
theorem keys_told_apart_by_a_point :
    let text : Json := .string "\"\\\n\u0001é"
    let whole : Json := .object [("b", .integer 1), ("a", .array [.integer 1, text])]
    let turned : Json := .object [("a", .array [.integer 1, text]), ("b", .integer 1)]
    let real : Json := .object [("a", .array [.real (.ofNat 1), text]), ("b", .integer 1)]
    keyText whole = keyText turned ∧ keyText turned ≠ keyText real := by
  intro text whole turned real
  have one : Json.FitsWord 1 := by decide
  have wholeDistinct : whole.Distinct := ⟨by decide, one, ⟨one, trivial, trivial⟩, trivial⟩
  have turnedDistinct : turned.Distinct := ⟨by decide, ⟨one, trivial, trivial⟩, one, trivial⟩
  have realDistinct : real.Distinct :=
    ⟨by decide, ⟨(by decide +kernel : (Binary64.ofNat 1).isFinite = true), trivial, trivial⟩, one,
      trivial⟩
  have reordered : whole.Reordered turned := .members (.swap ..) (by decide)
  have apart : turned.normalized ≠ real.normalized := by decide +kernel
  refine ⟨(keys_told_apart wholeDistinct turnedDistinct).1.mpr reordered, ?_⟩
  intro same
  exact apart ((keys_told_apart turnedDistinct realDistinct).1.mp same).normalized_eq

end Coordination
