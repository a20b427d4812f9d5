import Coordination.Binary64
import Mathlib.Tactic.Linarith
import Mathlib.Tactic.Ring

/-!
Rounding to the nearest number. The result depends on the value of a ratio and not on its form, and
whatever is near enough to a number is rounded to it.
-/

namespace Coordination.Binary64

/-! Sign and magnitude. -/

variable {negative : Bool} {magnitude : Nat}

theorem toNat_ofMagnitude (bound : magnitude < signWeight) :
    (ofMagnitude negative magnitude).bits.toNat =
      magnitude + if negative then signWeight else 0 := by
  have total : magnitude + (if negative then signWeight else 0) < 2 ^ 64 := by
    unfold signWeight at bound ⊢
    split <;> omega
  exact UInt64.toNat_ofNat_of_lt' total

theorem magnitude_ofMagnitude (bound : magnitude < signWeight) :
    (ofMagnitude negative magnitude).magnitude = magnitude := by
  rw [Binary64.magnitude, toNat_ofMagnitude bound]
  cases negative
  · exact Nat.mod_eq_of_lt bound
  · rw [if_pos rfl, Nat.add_mod_right]
    exact Nat.mod_eq_of_lt bound

theorem ofMagnitude_magnitude (x : Binary64) : ofMagnitude x.isNegative x.magnitude = x := by
  obtain ⟨bits⟩ := x
  have bound := bits.toNat_lt
  rw [ofMagnitude, isNegative, Binary64.magnitude]
  congr 1
  apply UInt64.toNat_inj.mp
  rw [UInt64.toNat_ofNat']
  dsimp only
  by_cases negative : signWeight ≤ bits.toNat
  · rw [if_pos (decide_eq_true negative)]
    unfold signWeight at negative ⊢
    omega
  · rw [if_neg (by simpa using negative)]
    unfold signWeight at negative ⊢
    omega

theorem magnitude_lt_of_isFinite {x : Binary64} (finite : x.isFinite = true) :
    x.magnitude < infinityMagnitude := of_decide_eq_true finite

/-! The value of a ratio. -/

theorem roundHalfEven_mul_right (num den : Nat) {factor : Nat} (positive : 0 < factor) :
    roundHalfEven (num * factor) (den * factor) = roundHalfEven num den := by
  have lower : 2 * (num % den * factor) < den * factor ↔ 2 * (num % den) < den := by
    rw [← Nat.mul_assoc, Nat.mul_lt_mul_right positive]
  have upper : den * factor < 2 * (num % den * factor) ↔ den < 2 * (num % den) := by
    rw [← Nat.mul_assoc, Nat.mul_lt_mul_right positive]
  simp only [roundHalfEven, Nat.mul_div_mul_right _ _ positive, Nat.mul_mod_mul_right, lower, upper]

theorem nearestMagnitude_mul_right (num den : Nat) {factor : Nat} (positive : 0 < factor) :
    nearestMagnitude (num * factor) (den * factor) = nearestMagnitude num den := by
  simp only [nearestMagnitude, Nat.mul_div_mul_right _ _ positive, Nat.mul_right_comm den factor,
    roundHalfEven_mul_right _ _ positive]

theorem nearestMagnitude_congr {num den num' den' : Nat} (positive : 0 < den)
    (positive' : 0 < den') (same : num * den' = num' * den) :
    nearestMagnitude num den = nearestMagnitude num' den' := by
  rw [← nearestMagnitude_mul_right num den positive', same, Nat.mul_comm den den',
    nearestMagnitude_mul_right num' den' positive]

theorem nearestMagnitude_le (num den : Nat) : nearestMagnitude num den ≤ infinityMagnitude :=
  Nat.min_le_right _ _

/-! What is near enough. -/

theorem roundHalfEven_of_near {num den n : Nat} (below : 2 * (n * den) < 2 * num + den)
    (above : 2 * num < 2 * (n * den) + den) : roundHalfEven num den = n := by
  rcases Nat.lt_or_ge num (n * den) with less | more
  · obtain ⟨n, rfl⟩ : ∃ k, n = k + 1 := by
      cases n with
      | zero => simp at less
      | succ k => exact ⟨k, rfl⟩
    rw [Nat.succ_mul n den] at below above less
    have floor : num / den = n := Nat.div_eq_of_lt_le (by omega) (by rw [Nat.succ_mul n den]; omega)
    have split := Nat.div_add_mod' num den
    rw [floor] at split
    simp only [roundHalfEven, floor]
    rw [if_neg (by omega), if_pos (by omega)]
  · have floor : num / den = n := Nat.div_eq_of_lt_le more (by rw [Nat.succ_mul n den]; omega)
    have split := Nat.div_add_mod' num den
    rw [floor] at split
    simp only [roundHalfEven, floor]
    rw [if_pos (by omega)]

theorem log2_sub_of_between {n shift : Nat} (below : shift = 0 ∨ octave * 2 ^ shift ≤ n)
    (above : n < 2 * octave * 2 ^ shift) : n.log2 - 52 = shift := by
  have lessThan : n < 2 ^ (53 + shift) := by
    rw [Nat.pow_add]
    exact above
  rcases below with rfl | atLeast
  · rcases Nat.eq_zero_or_pos n with rfl | positive
    · rfl
    · have := (Nat.log2_lt (by omega)).mpr lessThan
      omega
  · have atLeast : 2 ^ (52 + shift) ≤ n := by
      rw [Nat.pow_add]
      exact atLeast
    have positive : 0 < n := Nat.lt_of_lt_of_le (Nat.two_pow_pos _) atLeast
    have upper := (Nat.log2_lt (by omega)).mpr lessThan
    have lower := (Nat.le_log2 (by omega)).mpr atLeast
    omega

/-- The multiples of one step, from `octave` up to `2 * octave` of them, are rounded to themselves with
all that is less than half a step away. -/
theorem nearestMagnitude_of_near {num den shift mantissa : Nat} (positive : 0 < den)
    (finite : shift * octave + mantissa ≤ infinityMagnitude)
    (notBelow : shift = 0 ∨ octave * (2 ^ shift * den) ≤ num)
    (notAbove : num < 2 * octave * (2 ^ shift * den))
    (below : 2 * (mantissa * (2 ^ shift * den)) < 2 * num + 2 ^ shift * den)
    (above : 2 * num < 2 * (mantissa * (2 ^ shift * den)) + 2 ^ shift * den) :
    nearestMagnitude num den = shift * octave + mantissa := by
  have scale : (num / den).log2 - 52 = shift := by
    apply log2_sub_of_between
    · refine notBelow.imp id fun atLeast => ?_
      rwa [Nat.le_div_iff_mul_le positive, Nat.mul_assoc]
    · rwa [Nat.div_lt_iff_lt_mul positive, Nat.mul_assoc]
  rw [Nat.mul_comm _ den] at below above
  simp only [nearestMagnitude, scale, Nat.pow_eq, roundHalfEven_of_near below above]
  exact Nat.min_eq_left finite

/-- Every magnitude counts steps of one size: `shift` octaves of them, and `mantissa` more. -/
theorem exists_scaled (magnitude : Nat) :
    ∃ shift mantissa, magnitude = shift * octave + mantissa ∧
      unitsOfMagnitude magnitude = mantissa * 2 ^ shift ∧ mantissa < 2 * octave ∧
      (shift = 0 ∨ octave ≤ mantissa) := by
  by_cases small : magnitude < 2 * octave
  · exact ⟨0, magnitude, by simp, by simp [unitsOfMagnitude, small], small, .inl rfl⟩
  · have split := Nat.div_add_mod' magnitude octave
    have within : magnitude % octave < octave := Nat.mod_lt _ (by decide)
    have octaves : 2 ≤ magnitude / octave :=
      (Nat.le_div_iff_mul_le (by decide)).mpr (Nat.not_lt.mp small)
    obtain ⟨shift, more⟩ : ∃ shift, magnitude / octave = shift + 1 :=
      ⟨magnitude / octave - 1, by omega⟩
    refine ⟨shift, octave + magnitude % octave, ?_, ?_, by omega, .inr (by omega)⟩
    · rw [more, Nat.succ_mul] at split
      omega
    · simp [unitsOfMagnitude, small, more]

/-- A ratio that differs from a finite number by less than a part in 2^54 is rounded to it. -/
theorem nearestMagnitude_of_close {num den slack : Nat} (finite : magnitude < infinityMagnitude)
    (positive : 0 < den) (close : 2 ^ 53 * slack < unitsOfMagnitude magnitude * den)
    (below : 2 * (unitsOfMagnitude magnitude * den) ≤ 2 * num + slack)
    (above : 2 * num ≤ 2 * (unitsOfMagnitude magnitude * den) + slack) :
    nearestMagnitude num den = magnitude := by
  obtain ⟨shift, mantissa, rfl, units, small, normal⟩ := exists_scaled magnitude
  rw [units, Nat.mul_assoc] at close below above
  have step : 0 < 2 ^ shift * den := Nat.mul_pos (Nat.two_pow_pos _) positive
  have atMost : mantissa * (2 ^ shift * den) ≤ (2 * octave - 1) * (2 ^ shift * den) :=
    Nat.mul_le_mul_right _ (by omega)
  -- Below a power of two the numbers lie twice as dense as above it.
  by_cases denser : mantissa = octave ∧ shift ≠ 0 ∧ num < mantissa * (2 ^ shift * den)
  · obtain ⟨rfl, nonzero, less⟩ := denser
    obtain ⟨shift, rfl⟩ : ∃ k, shift = k + 1 := Nat.exists_eq_succ_of_ne_zero nonzero
    have halved : 2 ^ (shift + 1) * den = 2 * (2 ^ shift * den) := by ring
    rw [halved] at close below above less step
    have sameNumber : (shift + 1) * octave + octave = shift * octave + 2 * octave := by ring
    rw [sameNumber] at finite ⊢
    apply nearestMagnitude_of_near positive finite.le
    · exact .inr (by unfold octave at *; omega)
    all_goals unfold octave at *; omega
  · have notBelow : shift = 0 ∨ octave * (2 ^ shift * den) ≤ num := by
      refine or_iff_not_imp_left.mpr fun nonzero => ?_
      rcases (normal.resolve_left nonzero).eq_or_lt with rfl | more
      · exact Nat.not_lt.mp fun less => denser ⟨rfl, nonzero, less⟩
      · have atLeast : (octave + 1) * (2 ^ shift * den) ≤ mantissa * (2 ^ shift * den) :=
          Nat.mul_le_mul_right _ more
        unfold octave at *
        omega
    apply nearestMagnitude_of_near positive finite.le notBelow
    all_goals unfold octave at *; omega

end Coordination.Binary64
