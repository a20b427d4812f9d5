import Coordination.Proofs.Binary64.Rounding
import Mathlib.Data.List.Induction

/-! Least and greatest values of a list. Those that are not numbers are passed over. -/

namespace Coordination.Binary64

/-- Least of the values that are numbers, and infinity where none of them is. -/
def IsMinimum (values : List Binary64) (x : Binary64) : Prop :=
  (∀ v ∈ values, v.isNaN = true) ∧ x = .infinity ∨
    x ∈ values ∧ x.isNaN = false ∧ ∀ v ∈ values, v.isNaN = false → x.le v = true

/-- Greatest of the values that are numbers, and negative infinity where none of them is. -/
def IsMaximum (values : List Binary64) (x : Binary64) : Prop :=
  (∀ v ∈ values, v.isNaN = true) ∧ x = .negativeInfinity ∨
    x ∈ values ∧ x.isNaN = false ∧ ∀ v ∈ values, v.isNaN = false → v.le x = true

theorem isMinimum_congr {first second : List Binary64} (same : ∀ v, v ∈ first ↔ v ∈ second)
    (x : Binary64) : IsMinimum first x ↔ IsMinimum second x := by
  simp only [IsMinimum, same]

theorem isMaximum_congr {first second : List Binary64} (same : ∀ v, v ∈ first ↔ v ∈ second)
    (x : Binary64) : IsMaximum first x ↔ IsMaximum second x := by
  simp only [IsMaximum, same]

/-! Both are the result of the same choice, made by opposite ranks. -/

def lesser (rank : Binary64 → Int) (x y : Binary64) : Binary64 :=
  if x.isNaN then y else if y.isNaN then x else if rank y < rank x then y else x

theorem min_eq_lesser : min = lesser rank := by
  funext x y
  cases first : x.isNaN <;> cases second : y.isNaN <;> simp [min, lesser, lt, first, second]

theorem max_eq_lesser : max = lesser fun x => -x.rank := by
  funext x y
  cases first : x.isNaN <;> cases second : y.isNaN <;> simp [max, lesser, lt, first, second]

section Lesser

variable {rank : Binary64 → Int} {x y : Binary64}

theorem lesser_of_isNaN (first : x.isNaN = false) (second : y.isNaN = true) :
    lesser rank x y = x := by
  simp [lesser, first, second]

theorem lesser_of_lt (first : x.isNaN = false) (second : y.isNaN = false) (below : rank y < rank x) :
    lesser rank x y = y := by
  simp [lesser, first, second, below]

theorem lesser_of_le (first : x.isNaN = false) (second : y.isNaN = false) (le : rank x ≤ rank y) :
    lesser rank x y = x := by
  simp [lesser, first, second, Int.not_lt.mpr le]

/-- No number comes after `start`, which is one itself. -/
structure Outranked (rank : Binary64 → Int) (start : Binary64) : Prop where
  number : start.isNaN = false
  eq_of_le : ∀ v, v.isNaN = false → rank start ≤ rank v → v = start

theorem foldl_lesser {start : Binary64} (outranked : Outranked rank start)
    (values : List Binary64) :
    (∀ v ∈ values, v.isNaN = true) ∧ values.foldl (lesser rank) start = start ∨
      values.foldl (lesser rank) start ∈ values ∧
        (values.foldl (lesser rank) start).isNaN = false ∧
        ∀ v ∈ values, v.isNaN = false → rank (values.foldl (lesser rank) start) ≤ rank v := by
  induction values using List.reverseRecOn with
  | nil => exact .inl ⟨nofun, rfl⟩
  | append_singleton values v induction =>
      rw [List.foldl_append, List.foldl_cons, List.foldl_nil, List.mem_append, List.mem_singleton,
        List.forall_mem_append, List.forall_mem_append, List.forall_mem_singleton,
        List.forall_mem_singleton]
      generalize values.foldl (lesser rank) start = x at induction ⊢
      rcases induction with ⟨none, rfl⟩ | ⟨member, number, least⟩
      · cases second : v.isNaN with
        | true =>
            rw [lesser_of_isNaN outranked.number second]
            exact .inl ⟨⟨none, rfl⟩, rfl⟩
        | false =>
            have chosen : lesser rank x v = v := by
              by_cases below : rank v < rank x
              · exact lesser_of_lt outranked.number second below
              · rw [outranked.eq_of_le v second (Int.not_lt.mp below)]
                exact lesser_of_le outranked.number outranked.number (Int.le_refl _)
            rw [chosen]
            refine .inr ⟨.inr rfl, second, ?_, fun _ => Int.le_refl _⟩
            intro other inside numeric
            exact absurd (none other inside) (by simp [numeric])
      · refine .inr ?_
        cases second : v.isNaN with
        | true =>
            rw [lesser_of_isNaN number second]
            exact ⟨.inl member, number, least, nofun⟩
        | false =>
            by_cases below : rank v < rank x
            · rw [lesser_of_lt number second below]
              refine ⟨.inr rfl, second, ?_, fun _ => Int.le_refl _⟩
              intro other inside numeric
              exact Int.le_trans (Int.le_of_lt below) (least other inside numeric)
            · rw [lesser_of_le number second (Int.not_lt.mp below)]
              exact ⟨.inl member, number, least, fun _ => Int.not_lt.mp below⟩

/-! A value that has been passed once does not change the choice again. -/

/-- The choice stays with `x` where `v` comes. -/
def Passed (rank : Binary64 → Int) (x v : Binary64) : Prop := v.isNaN = true ∨ rank x ≤ rank v

theorem lesser_of_passed (number : x.isNaN = false) (passed : Passed rank x y) :
    lesser rank x y = x := by
  cases second : y.isNaN with
  | true => exact lesser_of_isNaN number second
  | false => exact lesser_of_le number second (passed.resolve_left (by simp [second]))

theorem lesser_passes (number : x.isNaN = false) :
    (lesser rank x y).isNaN = false ∧ Passed rank (lesser rank x y) y ∧
      rank (lesser rank x y) ≤ rank x := by
  cases second : y.isNaN with
  | true =>
      rw [lesser_of_isNaN number second]
      exact ⟨number, .inl second, Int.le_refl _⟩
  | false =>
      by_cases below : rank y < rank x
      · rw [lesser_of_lt number second below]
        exact ⟨second, .inr (Int.le_refl _), Int.le_of_lt below⟩
      · rw [lesser_of_le number second (Int.not_lt.mp below)]
        exact ⟨number, .inr (Int.not_lt.mp below), Int.le_refl _⟩

theorem foldl_lesser_passes (number : x.isNaN = false) (values : List Binary64) :
    (values.foldl (lesser rank) x).isNaN = false ∧
      (∀ v ∈ values, Passed rank (values.foldl (lesser rank) x) v) ∧
      rank (values.foldl (lesser rank) x) ≤ rank x := by
  induction values generalizing x with
  | nil => exact ⟨number, nofun, Int.le_refl _⟩
  | cons v values induction =>
      obtain ⟨stillNumber, passed, below⟩ := @lesser_passes rank x v number
      obtain ⟨final, others, further⟩ := induction stillNumber
      refine ⟨final, List.forall_mem_cons.mpr ⟨?_, others⟩, further.trans below⟩
      exact passed.imp id further.trans

theorem foldl_lesser_of_passed (number : x.isNaN = false) {values : List Binary64}
    (passed : ∀ v ∈ values, Passed rank x v) : values.foldl (lesser rank) x = x := by
  induction values with
  | nil => rfl
  | cons v values induction =>
      obtain ⟨first, others⟩ := List.forall_mem_cons.mp passed
      rw [List.foldl_cons, lesser_of_passed number first]
      exact induction others

theorem foldl_lesser_replicate (number : x.isNaN = false) (values : List Binary64) (count : Nat) :
    (List.replicate (count + 1) values).flatten.foldl (lesser rank) x =
      values.foldl (lesser rank) x := by
  obtain ⟨final, passed, -⟩ := @foldl_lesser_passes rank x number values
  rw [List.replicate_succ, List.flatten_cons, List.foldl_append]
  refine foldl_lesser_of_passed final fun v member => ?_
  obtain ⟨block, among, inside⟩ := List.mem_flatten.mp member
  exact passed v (List.eq_of_mem_replicate among ▸ inside)

end Lesser

/-! Infinities. -/

theorem eq_ofMagnitude {x : Binary64} {negative : Bool} {magnitude : Nat}
    (sign : x.isNegative = negative) (size : x.magnitude = magnitude) :
    x = ofMagnitude negative magnitude := by
  rw [← sign, ← size, ofMagnitude_magnitude]

theorem magnitude_le_of_number {x : Binary64} (number : x.isNaN = false) :
    x.magnitude ≤ infinityMagnitude := Nat.not_lt.mp (of_decide_eq_false number)

theorem outranked_infinity : Outranked rank .infinity where
  number := by decide
  eq_of_le := by
    intro v number le
    have bound := magnitude_le_of_number number
    have top : rank .infinity = infinityMagnitude := by decide
    rw [top, rank] at le
    have positive : 0 < infinityMagnitude := by decide
    split at le
    · omega
    · rename_i sign
      exact eq_ofMagnitude (Bool.eq_false_iff.mpr sign) (by omega)

theorem outranked_negativeInfinity : Outranked (fun x => -x.rank) .negativeInfinity where
  number := by decide
  eq_of_le := by
    intro v number le
    have bound := magnitude_le_of_number number
    have bottom : rank .negativeInfinity = -infinityMagnitude := by decide
    rw [bottom, rank] at le
    have positive : 0 < infinityMagnitude := by decide
    split at le
    · rename_i sign
      exact eq_ofMagnitude sign (by omega)
    · omega

theorem isMinimum_foldl (values : List Binary64) :
    IsMinimum values (values.foldl min .infinity) := by
  rw [min_eq_lesser]
  refine (foldl_lesser outranked_infinity values).imp_right ?_
  rintro ⟨member, isNumber, least⟩
  refine ⟨member, isNumber, fun v inside numeric => ?_⟩
  simp [le, isNumber, numeric, least v inside numeric]

theorem isMaximum_foldl (values : List Binary64) :
    IsMaximum values (values.foldl max .negativeInfinity) := by
  rw [max_eq_lesser]
  refine (foldl_lesser outranked_negativeInfinity values).imp_right ?_
  rintro ⟨member, isNumber, greatest⟩
  refine ⟨member, isNumber, fun v inside numeric => ?_⟩
  have := greatest v inside numeric
  simp [le, isNumber, numeric, Int.neg_le_neg_iff.mp this]

end Coordination.Binary64
