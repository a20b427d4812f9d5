import Std.Data.HashSet

/-! Lists of names in which none may stand twice. -/

namespace Coordination.Text

def firstRepeatedAfter? (seen : Std.HashSet String) : List String → Option String
  | [] => none
  | name :: rest =>
      if seen.contains name then some name else firstRepeatedAfter? (seen.insert name) rest

/-- First name of the list that stands in it before. -/
def firstRepeated? (names : List String) : Option String := firstRepeatedAfter? ∅ names

theorem firstRepeatedAfter?_eq_none_iff (seen : Std.HashSet String) (names : List String) :
    firstRepeatedAfter? seen names = none ↔ names.Nodup ∧ ∀ name ∈ names, name ∉ seen := by
  induction names generalizing seen with
  | nil => simp [firstRepeatedAfter?]
  | cons name rest induction =>
      by_cases old : name ∈ seen
      · simp [firstRepeatedAfter?, old]
      · rw [firstRepeatedAfter?, if_neg (mt Std.HashSet.contains_iff_mem.mp old)]
        rw [induction, List.nodup_cons, List.forall_mem_cons]
        simp only [Std.HashSet.mem_insert, beq_iff_eq, not_or]
        constructor
        · rintro ⟨distinct, fresh⟩
          exact ⟨⟨fun again => (fresh name again).1 rfl, distinct⟩, old,
            fun other inRest => (fresh other inRest).2⟩
        · rintro ⟨⟨once, distinct⟩, -, fresh⟩
          refine ⟨distinct, fun other inRest => ⟨?_, fresh other inRest⟩⟩
          rintro rfl
          exact once inRest

theorem firstRepeated?_eq_none_iff (names : List String) :
    firstRepeated? names = none ↔ names.Nodup := by
  rw [firstRepeated?, firstRepeatedAfter?_eq_none_iff]
  simp

end Coordination.Text
