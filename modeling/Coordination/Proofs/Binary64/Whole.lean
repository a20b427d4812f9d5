import Coordination.Proofs.Binary64.Decimal

/-! Whole numbers. One of at most 53 bits is rounded to a number that has its very value. -/

namespace Coordination.Binary64

/-- The number is finite, and this is its value. -/
def Denotes (x : Binary64) (n : Int) : Prop := x.isFinite = true ∧ x.units = n * unitsPerOne

instance (x : Binary64) (n : Int) : Decidable (x.Denotes n) := inferInstanceAs (Decidable (_ ∧ _))

theorem isNegative_ofMagnitude {negative : Bool} {magnitude : Nat}
    (bound : magnitude < signWeight) : (ofMagnitude negative magnitude).isNegative = negative := by
  rw [isNegative, toNat_ofMagnitude bound]
  cases negative <;> simp [bound]

theorem unitsOfMagnitude_scaled {shift mantissa : Nat} (normal : octave ≤ mantissa)
    (small : mantissa < 2 * octave) :
    unitsOfMagnitude (shift * octave + mantissa) = mantissa * 2 ^ shift := by
  obtain ⟨fraction, rfl⟩ := Nat.exists_eq_add_of_le normal
  have within : fraction < octave := by omega
  have regrouped : shift * octave + (octave + fraction) = (shift + 1) * octave + fraction := by ring
  have octaves : ((shift + 1) * octave + fraction) / octave = shift + 1 :=
    Nat.div_eq_of_lt_le (by omega) (by rw [Nat.succ_mul (shift + 1)]; omega)
  rw [regrouped, unitsOfMagnitude, octaves, Nat.mul_add_mod', Nat.mod_eq_of_lt within]
  cases shift with
  | zero => rw [if_pos (by omega), Nat.pow_zero, Nat.mul_one, Nat.zero_add, Nat.one_mul]
  | succ shift =>
      rw [if_neg (by rw [Nat.succ_mul, Nat.succ_mul]; omega), Nat.add_sub_cancel, Nat.pow_eq]

/-- A whole number of at most 53 bits is a count of steps between two powers of two. -/
theorem exists_steps {n : Nat} (positive : 0 < n) (bound : n < 2 ^ 53) :
    ∃ shift mantissa, n * unitsPerOne = mantissa * 2 ^ shift ∧ octave ≤ mantissa ∧
      mantissa < 2 * octave ∧ shift * octave + mantissa < infinityMagnitude := by
  have bits : n.log2 < 53 := (Nat.log2_lt positive.ne').mpr bound
  have scale : octave = 2 ^ n.log2 * 2 ^ (52 - n.log2) := by
    rw [← Nat.pow_add, Nat.add_sub_cancel' (by omega)]
    rfl
  have small : n * 2 ^ (52 - n.log2) < 2 * octave := by
    rw [scale, ← Nat.mul_assoc, ← Nat.pow_succ']
    exact Nat.mul_lt_mul_of_pos_right Nat.lt_log2_self (Nat.two_pow_pos _)
  refine ⟨n.log2 + 1022, n * 2 ^ (52 - n.log2), ?_, ?_, small, ?_⟩
  · have exponent : 52 - n.log2 + (n.log2 + 1022) = 1074 := by omega
    rw [unitsPerOne_eq, Nat.mul_assoc, ← Nat.pow_add, exponent]
  · rw [scale]
    exact Nat.mul_le_mul_right _ (Nat.log2_self_le positive.ne')
  · have steps : (n.log2 + 1022) * octave ≤ 1074 * octave := Nat.mul_le_mul_right _ (by omega)
    unfold infinityMagnitude octave at *
    omega

theorem exists_nearest_whole {n : Nat} (bound : n < 2 ^ 53) :
    ∃ magnitude < infinityMagnitude, nearestMagnitude (n * unitsPerOne) 1 = magnitude ∧
      unitsOfMagnitude magnitude = n * unitsPerOne := by
  rcases Nat.eq_zero_or_pos n with rfl | positive
  · exact ⟨0, by decide, by decide +kernel, by decide +kernel⟩
  · obtain ⟨shift, mantissa, units, normal, small, finite⟩ := exists_steps positive bound
    refine ⟨shift * octave + mantissa, finite, ?_,
      (unitsOfMagnitude_scaled normal small).trans units.symm⟩
    have step : 0 < 2 ^ shift := Nat.two_pow_pos shift
    rw [units]
    apply nearestMagnitude_of_near Nat.one_pos finite.le
    all_goals rw [Nat.mul_one]
    · exact .inr (Nat.mul_le_mul_right _ normal)
    · exact Nat.mul_lt_mul_of_pos_right small step
    all_goals omega

theorem denotes_ofInt {n : Int} (bound : n.natAbs < 2 ^ 53) : (ofInt n).Denotes n := by
  obtain ⟨magnitude, finite, nearest, scaled⟩ := exists_nearest_whole bound
  have inRange : magnitude < signWeight := finite.trans (by decide)
  have shape : ofInt n = ofMagnitude (decide (n * (unitsPerOne : Int) < 0)) magnitude := by
    rw [ofInt, ofUnits, ofRatio, Int.natAbs_mul, Int.natAbs_natCast, nearest]
  rw [Denotes, shape, isFinite, units, absUnits, isNegative_ofMagnitude inRange,
    magnitude_ofMagnitude inRange, scaled]
  refine ⟨decide_eq_true finite, ?_⟩
  have unit : (0 : Int) < unitsPerOne := by exact_mod_cast unitsPerOne_pos
  rw [Nat.cast_mul, Int.natCast_natAbs]
  rcases lt_or_ge n 0 with negative | nonnegative
  · rw [if_pos (decide_eq_true (mul_neg_of_neg_of_pos negative unit)), abs_of_neg negative]
    ring
  · have sign : ¬ n * (unitsPerOne : Int) < 0 := not_lt.mpr (mul_nonneg nonnegative unit.le)
    rw [if_neg (mt of_decide_eq_true sign), abs_of_nonneg nonnegative]

end Coordination.Binary64
