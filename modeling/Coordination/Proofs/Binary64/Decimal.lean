import Coordination.Binary64.Decimal
import Coordination.Proofs.Binary64.Rounding
import Mathlib.Algebra.Order.Field.Power
import Mathlib.Data.Nat.Digits.Lemmas
import Mathlib.Tactic.FieldSimp
import Mathlib.Tactic.Positivity

/-!
Decimals and numbers. Reading a decimal depends on its value only, and the shortest decimal of a finite
number reads back to it.
-/

namespace Coordination.Binary64

theorem two_pow_le_ten_pow (n : Nat) : 2 ^ (3 * n) ≤ 10 ^ n := by
  rw [Nat.pow_mul]
  exact Nat.pow_le_pow_left (by decide) n

theorem unitsPerOne_eq : unitsPerOne = 2 ^ 1074 := by decide +kernel

theorem unitsPerOne_pos : 0 < unitsPerOne := by decide +kernel

theorem two_pow_mul_unitsPerOne (n : Nat) : 2 ^ n * unitsPerOne = 2 ^ (n + 1074) := by
  rw [unitsPerOne_eq, Nat.pow_add]

/-! Decimals past the range. -/

theorem nearestMagnitude_of_tiny {num den : Nat} (tiny : 2 * num < den) :
    nearestMagnitude num den = 0 := by
  have floor : num / den = 0 := Nat.div_eq_of_lt (by omega)
  have rest : num % den = num := Nat.mod_eq_of_lt (by omega)
  simp [nearestMagnitude, roundHalfEven, floor, rest, tiny]

theorem nearestMagnitude_of_huge {num den bits : Nat} (many : 2099 ≤ bits)
    (huge : 2 ^ bits ≤ num / den) : nearestMagnitude num den = infinityMagnitude := by
  have positive : num / den ≠ 0 := Nat.ne_of_gt (Nat.lt_of_lt_of_le (Nat.two_pow_pos bits) huge)
  have large : bits ≤ (num / den).log2 := (Nat.le_log2 positive).mpr huge
  have shift : 2047 ≤ (num / den).log2 - 52 := by omega
  have reached : infinityMagnitude ≤ ((num / den).log2 - 52) * octave :=
    Nat.mul_le_mul_right octave shift
  exact Nat.min_eq_right (reached.trans (Nat.le_add_right _ _))

/-- The cuts in reading a decimal change nothing. -/
theorem ofDecimal_eq_ofRatio (negative : Bool) (digits : Nat) (exponent : Int) :
    ofDecimal negative digits exponent =
      ofRatio negative (digits * 10 ^ exponent.toNat * unitsPerOne)
        (10 ^ (-exponent).toNat) := by
  unfold ofDecimal
  split
  · rename_i zero
    subst zero
    rw [ofRatio, nearestMagnitude_of_tiny (by simp)]
  · rename_i nonzero
    split
    · rename_i large
      have huge : 2 ^ (3 * exponent.toNat + 1074) ≤
          digits * 10 ^ exponent.toNat * unitsPerOne / 10 ^ (-exponent).toNat := by
        have whole : (-exponent).toNat = 0 := by omega
        rw [whole, Nat.pow_zero, Nat.div_one, ← two_pow_mul_unitsPerOne]
        apply Nat.mul_le_mul_right
        exact (two_pow_le_ten_pow _).trans (Nat.le_mul_of_pos_left _ (Nat.pos_of_ne_zero nonzero))
      rw [ofRatio, nearestMagnitude_of_huge (by omega) huge]
    · split
      · rename_i small
        have tiny : 2 * (digits * 10 ^ exponent.toNat * unitsPerOne) < 10 ^ (-exponent).toNat := by
          have part : exponent.toNat = 0 := by omega
          obtain ⟨n, places⟩ : ∃ n, (-exponent).toNat = n + (401 + digits.log2) :=
            ⟨(-exponent).toNat - (401 + digits.log2), by omega⟩
          rw [part, Nat.pow_zero, Nat.mul_one, places]
          have few : digits < 2 ^ (digits.log2 + 1) := Nat.lt_log2_self
          calc 2 * (digits * unitsPerOne) < 2 * (2 ^ (digits.log2 + 1) * unitsPerOne) := by
                apply Nat.mul_lt_mul_of_pos_left _ (by decide)
                exact Nat.mul_lt_mul_of_pos_right few unitsPerOne_pos
            _ = 2 ^ (1 + (digits.log2 + 1 + 1074)) := by
                rw [two_pow_mul_unitsPerOne, Nat.pow_add 2 1, Nat.pow_one]
            _ ≤ 2 ^ (3 * (n + (401 + digits.log2))) :=
                Nat.pow_le_pow_right (by decide) (by omega)
            _ ≤ 10 ^ (n + (401 + digits.log2)) := two_pow_le_ten_pow _
        rw [ofRatio, nearestMagnitude_of_tiny tiny]
      · rfl

/-! The value of a decimal. -/

namespace Decimal

def value (d : Decimal) : ℚ := d.digits * 10 ^ d.exponent

/-- The value as a ratio of natural numbers. -/
theorem value_eq (d : Decimal) :
    d.value = (d.digits * 10 ^ d.exponent.toNat : ℕ) / (10 ^ (-d.exponent).toNat : ℕ) := by
  obtain ⟨digits, exponent⟩ := d
  rw [value]
  push_cast
  rcases Int.le_total 0 exponent with whole | part
  · obtain ⟨n, rfl⟩ := Int.eq_ofNat_of_zero_le whole
    simp
  · obtain ⟨n, places⟩ := Int.eq_ofNat_of_zero_le (Int.neg_nonneg.mpr part)
    obtain rfl : exponent = -(n : Int) := by omega
    simp [div_eq_mul_inv]

theorem value_trim (fuel : Nat) (d : Decimal) : (d.trim fuel).value = d.value := by
  induction fuel generalizing d with
  | zero => rfl
  | succ fuel induction =>
      rw [trim]
      split
      · rename_i ends
        have digits : d.digits = d.digits / 10 * 10 := by omega
        rw [induction, value, value, zpow_add_one₀ (by norm_num)]
        conv_rhs => rw [digits]
        push_cast
        ring
      · rfl

end Decimal

theorem ofDecimal_congr {d e : Decimal} (same : d.value = e.value) (negative : Bool) :
    ofDecimal negative d.digits d.exponent = ofDecimal negative e.digits e.exponent := by
  have positive (n : Nat) : 0 < 10 ^ n := Nat.pow_pos (by decide)
  rw [d.value_eq, e.value_eq, div_eq_div_iff (by simp) (by simp)] at same
  have products : d.digits * 10 ^ d.exponent.toNat * 10 ^ (-e.exponent).toNat =
      e.digits * 10 ^ e.exponent.toNat * 10 ^ (-d.exponent).toNat := by exact_mod_cast same
  rw [ofDecimal_eq_ofRatio, ofDecimal_eq_ofRatio, ofRatio, ofRatio]
  generalize unitsPerOne = one
  rw [nearestMagnitude_congr (positive _) (positive _)]
  rw [Nat.mul_right_comm, products, Nat.mul_right_comm]

/-! Seventeen digits. -/

theorem lt_ten_pow_digitCount (n : Nat) : n < 10 ^ digitCount n :=
  (Nat.length_toDigits_le_iff (by decide) Nat.length_toDigits_pos).mp le_rfl

theorem ten_pow_digitCount_le {n : Nat} (positive : 0 < n) : 10 ^ (digitCount n - 1) ≤ n := by
  by_cases single : digitCount n = 1
  · rw [single]
    exact positive
  · have counted : 0 < digitCount n := Nat.length_toDigits_pos
    have more : ¬ digitCount n ≤ digitCount n - 1 := by omega
    rw [digitCount, Nat.length_toDigits_le_iff (by decide) (by unfold digitCount at *; omega)] at more
    exact Nat.not_lt.mp more

/-- The leading digit stands where its exponent says: the number reaches that power of ten. -/
theorem leadingExponent_le {units : Nat} (positive : 0 < units) :
    10 ^ (leadingExponent units).toNat * unitsPerOne ≤
      units * 10 ^ (-leadingExponent units).toNat := by
  have one := unitsPerOne_pos
  unfold leadingExponent
  generalize unitsPerOne = one' at *
  split
  · rename_i large
    have whole : 0 < units / one' := Nat.div_pos large one
    have counted : 0 < digitCount (units / one') := Nat.length_toDigits_pos
    have exponent : ((digitCount (units / one') : Int) - 1).toNat = digitCount (units / one') - 1 := by
      omega
    have none : (-((digitCount (units / one') : Int) - 1)).toNat = 0 := by omega
    rw [exponent, none, Nat.pow_zero, Nat.mul_one]
    exact (Nat.mul_le_mul_right _ (ten_pow_digitCount_le whole)).trans (Nat.div_mul_le_self _ _)
  · have none : (-(digitCount ((one' - 1) / units) : Int)).toNat = 0 := by omega
    have exponent : (- -(digitCount ((one' - 1) / units) : Int)).toNat =
        digitCount ((one' - 1) / units) := by omega
    rw [exponent, none, Nat.pow_zero, Nat.one_mul, Nat.mul_comm]
    have below := (Nat.div_lt_iff_lt_mul positive).mp (lt_ten_pow_digitCount ((one' - 1) / units))
    omega

theorem absUnits_pos {x : Binary64} (nonzero : x.isZero = false) : 0 < x.absUnits := by
  have magnitude := of_decide_eq_false nonzero
  obtain ⟨shift, mantissa, sum, units, -, normal⟩ := exists_scaled x.magnitude
  rw [absUnits, units]
  apply Nat.mul_pos _ (Nat.two_pow_pos _)
  rcases normal with rfl | atLeast
  · omega
  · exact Nat.lt_of_lt_of_le (by decide) atLeast

/-- Decimals with seventeen digits lie closer together than numbers do. -/
theorem seventeenth_digit_close {units : Nat} (positive : 0 < units) :
    10 ^ 16 * (unitsPerOne * 10 ^ (leadingExponent units - 16).toNat) ≤
      units * 10 ^ (-(leadingExponent units - 16)).toNat := by
  have leading := leadingExponent_le positive
  generalize leadingExponent units = exponent at *
  generalize unitsPerOne = one at *
  have balance : (exponent - 16).toNat + 16 + (-exponent).toNat =
      (-(exponent - 16)).toNat + exponent.toNat := by omega
  have power : 0 < 10 ^ (-exponent).toNat := Nat.pow_pos (by decide)
  apply Nat.le_of_mul_le_mul_right _ power
  calc 10 ^ 16 * (one * 10 ^ (exponent - 16).toNat) * 10 ^ (-exponent).toNat
      = one * 10 ^ ((exponent - 16).toNat + 16 + (-exponent).toNat) := by ring
    _ = 10 ^ (-(exponent - 16)).toNat * (10 ^ exponent.toNat * one) := by
        rw [balance]
        ring
    _ ≤ 10 ^ (-(exponent - 16)).toNat * (units * 10 ^ (-exponent).toNat) :=
        Nat.mul_le_mul_left _ leading
    _ = units * 10 ^ (-(exponent - 16)).toNat * 10 ^ (-exponent).toNat := by ring

theorem readsBack_of_close {x : Binary64} (finite : x.isFinite = true) {d : Decimal} (slack : Nat)
    (close : 2 ^ 53 * slack < x.absUnits * 10 ^ (-d.exponent).toNat)
    (below : 2 * (x.absUnits * 10 ^ (-d.exponent).toNat) ≤
      2 * (d.digits * 10 ^ d.exponent.toNat * unitsPerOne) + slack)
    (above : 2 * (d.digits * 10 ^ d.exponent.toNat * unitsPerOne) ≤
      2 * (x.absUnits * 10 ^ (-d.exponent).toNat) + slack) : readsBack x d = true := by
  have bound := magnitude_lt_of_isFinite finite
  have rounded := nearestMagnitude_of_close bound (Nat.pow_pos (by decide)) close below above
  have small : x.magnitude < signWeight := bound.trans (by decide)
  rw [readsBack, Decimal.toBinary64, ofDecimal_eq_ofRatio, ofRatio, rounded,
    magnitude_ofMagnitude small]
  exact decide_eq_true rfl

/-- Seventeen digits are enough: one of the two neighbours of that length reads back. -/
theorem readsBack_neighbours {x : Binary64} (finite : x.isFinite = true)
    (nonzero : x.isZero = false) :
    readsBack x (neighbours x.absUnits 17).1 = true ∨
      readsBack x (neighbours x.absUnits 17).2 = true := by
  have positive := absUnits_pos nonzero
  have close := seventeenth_digit_close positive
  have exponent : leadingExponent x.absUnits - ((17 : Nat) : Int) + 1 =
      leadingExponent x.absUnits - 16 := by omega
  simp only [neighbours, exponent, Nat.pow_eq]
  generalize leadingExponent x.absUnits - 16 = e at close ⊢
  -- One step between neighbours, and the number, both times the denominator.
  have step : 0 < unitsPerOne * 10 ^ e.toNat := Nat.mul_pos unitsPerOne_pos (Nat.pow_pos (by decide))
  have floor := Nat.div_add_mod' (x.absUnits * 10 ^ (-e).toNat) (unitsPerOne * 10 ^ e.toNat)
  have rest := Nat.mod_lt (x.absUnits * 10 ^ (-e).toNat) step
  have regroup (n : Nat) : n * 10 ^ e.toNat * unitsPerOne = n * (unitsPerOne * 10 ^ e.toNat) := by
    generalize unitsPerOne = one
    ring
  have next (n : Nat) : (n + 1) * (unitsPerOne * 10 ^ e.toNat) =
      n * (unitsPerOne * 10 ^ e.toNat) + unitsPerOne * 10 ^ e.toNat := Nat.succ_mul _ _
  by_cases nearer : 2 * (x.absUnits * 10 ^ (-e).toNat % (unitsPerOne * 10 ^ e.toNat)) ≤
      unitsPerOne * 10 ^ e.toNat
  · left
    apply readsBack_of_close finite (unitsPerOne * 10 ^ e.toNat)
    all_goals simp only [regroup]
    all_goals omega
  · right
    apply readsBack_of_close finite (unitsPerOne * 10 ^ e.toNat)
    all_goals simp only [regroup, next]
    all_goals omega

/-! The shortest decimal. -/

/-- A decimal is found if one of the neighbours reads back, and only then. -/
theorem decimalOfLength?_spec (x : Binary64) (count : Nat) :
    match decimalOfLength? x count with
    | some d => readsBack x d = true
    | none => readsBack x (neighbours x.absUnits count).1 = false ∧
        readsBack x (neighbours x.absUnits count).2 = false := by
  unfold decimalOfLength?
  generalize neighbours x.absUnits count = pair
  obtain ⟨lower, upper⟩ := pair
  cases below : readsBack x lower <;> cases above : readsBack x upper <;>
    simp only [below, above, and_self]
  · cases lowerIsNearer x.absUnits lower
    · exact above
    · exact below

theorem shortest_of_isZero {x : Binary64} (zero : x.isZero = true) : x.shortest = ⟨0, 0⟩ := by
  rw [shortest, if_pos zero]

theorem readsBack_trim {x : Binary64} {d : Decimal} (fuel : Nat) (reads : readsBack x d = true) :
    readsBack x (d.trim fuel) = true := by
  rw [readsBack, Decimal.toBinary64, ofDecimal_congr (d.value_trim fuel)]
  exact reads

/-- The shortest decimal of a finite number has the number's magnitude. -/
theorem readsBack_shortest {x : Binary64} (finite : x.isFinite = true) :
    readsBack x x.shortest = true := by
  cases zero : x.isZero with
  | true =>
      have magnitude : x.magnitude = 0 := of_decide_eq_true zero
      rw [shortest_of_isZero zero, readsBack, magnitude]
      decide
  | false =>
      rw [shortest, zero, if_neg (by decide)]
      cases found : (List.range 17).findSome? fun shorter => decimalOfLength? x (shorter + 1) with
      | some d =>
          obtain ⟨shorter, -, isDecimal⟩ := List.exists_of_findSome?_eq_some found
          have reads := decimalOfLength?_spec x (shorter + 1)
          rw [isDecimal] at reads
          exact readsBack_trim 400 reads
      | none =>
          have neither := decimalOfLength?_spec x 17
          rw [List.findSome?_eq_none_iff.mp found 16 (by decide)] at neither
          have one := readsBack_neighbours finite zero
          rw [neither.1, neither.2] at one
          simp at one

/-- Reading the shortest decimal with its sign gives the number back. -/
theorem ofDecimal_shortest {x : Binary64} (finite : x.isFinite = true) :
    ofDecimal x.isNegative x.shortest.digits x.shortest.exponent = x := by
  have same : x.shortest.toBinary64.magnitude = x.magnitude :=
    of_decide_eq_true (readsBack_shortest finite)
  rw [Decimal.toBinary64, ofDecimal_eq_ofRatio, ofRatio, magnitude_ofMagnitude] at same
  · rw [ofDecimal_eq_ofRatio, ofRatio, same, ofMagnitude_magnitude]
  · exact (nearestMagnitude_le _ _).trans_lt (by decide)

end Coordination.Binary64
