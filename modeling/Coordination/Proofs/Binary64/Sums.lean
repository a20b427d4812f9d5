import Coordination.Proofs.Binary64.Extremes
import Coordination.Proofs.Binary64.Whole

/-!
Signs of sums and differences. Rounding keeps a sum on its side of zero, so what is added up of numbers
that are not below zero is not below zero, and neither is the difference of a number and a lesser one.
-/

namespace Coordination.Binary64

/-! Values in the order of numbers. -/

theorem unitsOfMagnitude_le_succ (magnitude : Nat) :
    unitsOfMagnitude magnitude ≤ unitsOfMagnitude (magnitude + 1) := by
  obtain ⟨shift, mantissa, rfl, units, small, normal⟩ := exists_scaled magnitude
  rw [units, Nat.add_assoc]
  rcases Nat.lt_or_ge (mantissa + 1) (2 * octave) with within | past
  · rcases normal with rfl | normal
    · simp [unitsOfMagnitude, within]
    · rw [unitsOfMagnitude_scaled (by omega) within]
      exact Nat.mul_le_mul_right _ (Nat.le_succ mantissa)
  · -- The next number is the power of two at which the steps double.
    have full : mantissa + 1 = 2 * octave := by omega
    have regrouped : shift * octave + 2 * octave = (shift + 1) * octave + octave := by ring
    rw [full, regrouped, unitsOfMagnitude_scaled (Nat.le_refl _) (by decide), Nat.pow_succ]
    calc mantissa * 2 ^ shift
      _ ≤ 2 * octave * 2 ^ shift := Nat.mul_le_mul_right _ (by omega)
      _ = octave * (2 ^ shift * 2) := by ring

theorem monotone_unitsOfMagnitude : Monotone unitsOfMagnitude :=
  monotone_nat_of_le_succ unitsOfMagnitude_le_succ

variable {x y : Binary64}

theorem units_add_nonneg (le : -y.rank ≤ x.rank) : 0 ≤ x.units + y.units := by
  have none : unitsOfMagnitude 0 = 0 := rfl
  rw [rank, rank] at le
  rw [units, units, absUnits, absUnits]
  cases first : x.isNegative <;> cases second : y.isNegative <;>
    simp only [first, second, if_true, if_false, Bool.false_eq_true] at le ⊢
  case false.false => omega
  case false.true =>
    have below := monotone_unitsOfMagnitude (show y.magnitude ≤ x.magnitude by omega)
    omega
  case true.false =>
    have below := monotone_unitsOfMagnitude (show x.magnitude ≤ y.magnitude by omega)
    omega
  case true.true =>
    have zeros : x.magnitude = 0 ∧ y.magnitude = 0 := by omega
    rw [zeros.1, zeros.2, none]
    decide

/-! Numbers that are not below zero. -/

/-- Not below zero, as whatever is not a number. -/
def AtLeastZero (x : Binary64) : Prop := x.lt .zero = false

instance : DecidablePred AtLeastZero := fun _ => inferInstanceAs (Decidable (_ = _))

theorem atLeastZero_iff : x.AtLeastZero ↔ (x.isNaN = false → 0 ≤ x.rank) := by
  have numberZero : zero.isNaN = false := by decide
  have rankZero : zero.rank = 0 := by decide
  rw [AtLeastZero, lt, numberZero, rankZero]
  cases x.isNaN <;> simp

theorem atLeastZero_of_isNaN (notNumber : x.isNaN = true) : x.AtLeastZero :=
  atLeastZero_iff.mpr fun number => absurd (notNumber.symm.trans number) (by decide)

theorem atLeastZero_ofMagnitude {magnitude : Nat} (bound : magnitude < signWeight) :
    (ofMagnitude false magnitude).AtLeastZero := by
  refine atLeastZero_iff.mpr fun _ => ?_
  rw [rank, isNegative_ofMagnitude bound, if_neg Bool.false_ne_true]
  omega

theorem atLeastZero_ofUnits {units : Int} (nonnegative : 0 ≤ units) : (ofUnits units).AtLeastZero := by
  have sign : decide (units < 0) = false := decide_eq_false (by omega)
  rw [ofUnits, ofRatio, sign]
  exact atLeastZero_ofMagnitude ((nearestMagnitude_le _ _).trans_lt (by decide))

theorem natAbs_rank (x : Binary64) : x.rank.natAbs = x.magnitude := by
  rw [rank]
  split <;> omega

theorem isNegative_of_rank_neg (negative : x.rank < 0) : x.isNegative = true := by
  by_contra positive
  rw [rank, if_neg positive] at negative
  omega

theorem isNegative_of_rank_pos (positive : 0 < x.rank) : x.isNegative = false := by
  by_contra negative
  rw [rank, if_pos (by simpa using negative)] at positive
  omega

/-- A sum is not below zero where one number makes up for the other. -/
theorem atLeastZero_add_of_le (first : x.isNaN = false) (second : y.isNaN = false)
    (le : -y.rank ≤ x.rank) : (x.add y).AtLeastZero := by
  have boundX := magnitude_le_of_number first
  have boundY := magnitude_le_of_number second
  have sizeX := natAbs_rank x
  have sizeY := natAbs_rank y
  have positive : 0 < infinityMagnitude := by decide
  rw [add, first, second, Bool.or_self, if_neg Bool.false_ne_true]
  split
  · rename_i infinite
    have magnitudeX := of_decide_eq_true infinite
    split
    · exact atLeastZero_of_isNaN (by decide)
    · rename_i alike
      refine atLeastZero_iff.mpr fun _ => not_lt.mp fun negative => alike ?_
      -- What makes up for negative infinity is the other infinity.
      have infiniteY : y.isInfinite = true := decide_eq_true (by omega)
      rw [infiniteY, isNegative_of_rank_neg negative, isNegative_of_rank_pos (by omega)]
      rfl
  · rename_i finite
    have notInfinite : x.magnitude ≠ infinityMagnitude := by simpa [isInfinite] using finite
    split
    · rename_i infinite
      have magnitudeY := of_decide_eq_true infinite
      exact atLeastZero_iff.mpr fun _ => by omega
    · split
      · refine atLeastZero_iff.mpr fun _ => ?_
        have bound : 0 < signWeight := by decide
        rw [rank, magnitude_ofMagnitude bound]
        split <;> decide
      · exact atLeastZero_ofUnits (units_add_nonneg le)

theorem add_of_isNaN (either : (x.isNaN || y.isNaN) = true) : x.add y = nan := by
  rw [add, if_pos either]

theorem atLeastZero_add (first : x.AtLeastZero) (second : y.AtLeastZero) :
    (x.add y).AtLeastZero := by
  cases either : x.isNaN || y.isNaN with
  | true =>
      rw [add_of_isNaN either]
      decide
  | false =>
      obtain ⟨numberX, numberY⟩ := Bool.or_eq_false_iff.mp either
      have rankX := atLeastZero_iff.mp first numberX
      have rankY := atLeastZero_iff.mp second numberY
      exact atLeastZero_add_of_le numberX numberY (by omega)

theorem magnitude_lt_signWeight (x : Binary64) : x.magnitude < signWeight :=
  Nat.mod_lt _ (by decide)

theorem isNaN_neg (x : Binary64) : x.neg.isNaN = x.isNaN := by
  rw [isNaN, neg, magnitude_ofMagnitude x.magnitude_lt_signWeight]
  rfl

theorem rank_neg (x : Binary64) : x.neg.rank = -x.rank := by
  rw [rank, rank, neg, isNegative_ofMagnitude x.magnitude_lt_signWeight,
    magnitude_ofMagnitude x.magnitude_lt_signWeight]
  cases x.isNegative <;> simp

theorem atLeastZero_sub (le : x.le y = true) : (y.sub x).AtLeastZero := by
  rw [Binary64.le, Bool.and_eq_true, Bool.and_eq_true, Bool.not_eq_true', Bool.not_eq_true',
    decide_eq_true_eq] at le
  obtain ⟨⟨first, second⟩, below⟩ := le
  refine atLeastZero_add_of_le second ((isNaN_neg x).trans first) ?_
  rwa [rank_neg, Int.neg_neg]

/-! Negative infinity, which only a value that is no number and positive infinity take away. -/

theorem add_negativeInfinity (x : Binary64) :
    x.add .negativeInfinity = nan ∨ x.add .negativeInfinity = .negativeInfinity := by
  have number : negativeInfinity.isNaN = false := by decide
  have infinite : negativeInfinity.isInfinite = true := by decide
  have sign : negativeInfinity.isNegative = true := by decide
  rw [add, number, infinite, sign]
  split
  · exact .inl rfl
  · split
    · rename_i infiniteX
      split
      · exact .inl rfl
      · rename_i alike
        have negative : x.isNegative = true := by simpa using alike
        exact .inr (eq_ofMagnitude negative (of_decide_eq_true infiniteX))
    · exact .inr rfl

theorem negativeInfinity_add (y : Binary64) :
    negativeInfinity.add y = nan ∨ negativeInfinity.add y = .negativeInfinity := by
  have infinite : negativeInfinity.isInfinite = true := by decide
  rw [add, infinite, if_pos (rfl : true = true)]
  split
  · exact .inl rfl
  · split
    · exact .inl rfl
    · exact .inr rfl

/-- Not below zero, unless it is negative infinity. -/
def NoFiniteLoss (x : Binary64) : Prop := x.AtLeastZero ∨ x = .negativeInfinity

theorem noFiniteLoss_add (first : x.NoFiniteLoss) (second : y.NoFiniteLoss) :
    (x.add y).NoFiniteLoss := by
  have notNumber : nan.AtLeastZero := by decide
  rcases first with first | rfl
  · rcases second with second | rfl
    · exact .inl (atLeastZero_add first second)
    · rcases add_negativeInfinity x with same | same
      · exact .inl (same ▸ notNumber)
      · exact .inr same
  · rcases negativeInfinity_add y with same | same
    · exact .inl (same ▸ notNumber)
    · exact .inr same

theorem foldl_add_induction {P : Binary64 → Prop} (start : P zero)
    (step : ∀ {x y : Binary64}, P x → P y → P (x.add y)) {values : List Binary64}
    (each : ∀ v ∈ values, P v) : P (values.foldl add zero) := by
  induction values using List.reverseRecOn with
  | nil => exact start
  | append_singleton values v induction =>
      obtain ⟨earlier, last⟩ := List.forall_mem_append.mp each
      rw [List.foldl_append, List.foldl_cons, List.foldl_nil]
      exact step (induction earlier) (List.forall_mem_singleton.mp last)

theorem atLeastZero_zero : zero.AtLeastZero := by decide

theorem atLeastZero_foldl_add {values : List Binary64} (each : ∀ v ∈ values, v.AtLeastZero) :
    (values.foldl add zero).AtLeastZero :=
  foldl_add_induction (P := AtLeastZero) atLeastZero_zero atLeastZero_add each

theorem noFiniteLoss_foldl_add {values : List Binary64} (each : ∀ v ∈ values, v.NoFiniteLoss) :
    (values.foldl add zero).NoFiniteLoss :=
  foldl_add_induction (P := NoFiniteLoss) (.inl atLeastZero_zero) noFiniteLoss_add each

end Coordination.Binary64
