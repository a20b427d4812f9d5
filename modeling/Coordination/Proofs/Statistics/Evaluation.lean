import Coordination.Proofs.Statistics.Instance

/-!
Evaluation of derived metrics. In a type that may be built it goes down one level at most, and what is
sampled at a place is what is read under the name there.
-/

namespace Coordination

namespace Instance

variable {i : Instance}

theorem valueWithin?_succ_of_derived {p : i.Position} {numerator denominator : String}
    (kind : i.kindAt p = .derived numerator denominator) (levels : Nat) :
    i.valueWithin? (levels + 1) p = do
      let x ← (i.position? numerator).elim (some .zero) (i.valueWithin? levels)
      let y ← (i.position? denominator).elim (some .zero) (i.valueWithin? levels)
      return quotient x y := by
  rw [valueWithin?.eq_def, kind]

theorem exists_operand (distinct : (i.type.metrics.map (·.name)).Nodup) {operand : String}
    (stores : StatisticsType.Stores i.type.metrics operand) :
    ∃ q : i.Position, i.position? operand = some q ∧ (i.kindAt q).isStored = true ∧
      i.read operand = .ok (i.valueAt q) := by
  obtain ⟨m, member, rfl, stored⟩ := stores
  obtain ⟨q, rfl⟩ := exists_position member
  exact ⟨q, position?_name distinct q, MetricKind.isStored_iff.mpr stored, read_name distinct q⟩

section Proper

variable (proper : StatisticsType.Proper i.type.metrics)

include proper

/-- One level of operands is enough, and more of them change nothing. -/
theorem valueWithin?_of_derived {p : i.Position} {numerator denominator : String}
    (kind : i.kindAt p = .derived numerator denominator) :
    ∃ x y, i.read numerator = .ok x ∧ i.read denominator = .ok y ∧
      ∀ levels, i.valueWithin? (levels + 1) p = some (quotient x y) := by
  obtain ⟨first, second⟩ := proper.stored _ (List.get_mem _ p) numerator denominator kind
  obtain ⟨x, foundX, storedX, readX⟩ := exists_operand proper.distinct first
  obtain ⟨y, foundY, storedY, readY⟩ := exists_operand proper.distinct second
  refine ⟨_, _, readX, readY, fun levels => ?_⟩
  rw [valueWithin?_succ_of_derived kind, foundX, foundY, Option.elim_some, Option.elim_some,
    valueWithin?_of_stored storedX, valueWithin?_of_stored storedY, valueAt_of_stored storedX,
    valueAt_of_stored storedY]
  rfl

theorem valueWithin?_of_proper (p : i.Position) (levels : Nat) :
    i.valueWithin? (levels + 1) p = some (i.valueAt p) := by
  cases kind : i.kindAt p with
  | intCounter | longCounter | gauge =>
      have stored : (i.kindAt p).isStored = true := by
        rw [kind]
        rfl
      rw [valueAt_of_stored stored, valueWithin?_of_stored stored]
  | derived numerator denominator =>
      obtain ⟨x, y, -, -, value⟩ := valueWithin?_of_derived proper kind
      obtain ⟨fewer, count⟩ := Nat.exists_eq_add_one.mpr (Nat.zero_lt_of_lt p.isLt)
      rw [value, valueAt, count, value, Option.getD_some]

theorem read_of_derived {m : Metric} (member : m ∈ i.type.metrics) {numerator denominator : String}
    (kind : m.kind = .derived numerator denominator) :
    ∃ x y, i.read numerator = .ok x ∧ i.read denominator = .ok y ∧
      i.read m.name = .ok (if y.isZero then .zero else x.div y) := by
  obtain ⟨p, rfl⟩ := exists_position member
  obtain ⟨x, y, readX, readY, value⟩ := valueWithin?_of_derived proper kind
  refine ⟨x, y, readX, readY, ?_⟩
  have same : i.valueAt p = quotient x y :=
    Option.some.inj ((valueWithin?_of_proper proper p 0).symm.trans (value 0))
  rw [read_name proper.distinct, same]
  rfl

theorem read_of_sampled (now : UInt64) {index : Nat} {m : Metric}
    (there : i.type.metrics[index]? = some m) :
    ∃ x, (i.sample now).values[index]? = some x ∧ i.read m.name = .ok x := by
  obtain ⟨inside, rfl⟩ := List.getElem?_eq_some_iff.mp there
  exact ⟨_, i.getElem?_values ⟨index, inside⟩, read_name proper.distinct ⟨index, inside⟩⟩

end Proper

/-- A type may be built if no name stands twice and the operands of what is derived are stored. Then every
metric of every instance has a value, one level of operands down at most: a quotient is that of what is
read of its operands, and a sample has at each place what is read under the name there. -/
theorem built_types_evaluate (typeName : String) (metrics : List Metric) :
    ((∃ t, StatisticsType.ofMetrics typeName metrics = .ok t) ↔ StatisticsType.Proper metrics) ∧
    ∀ t, StatisticsType.ofMetrics typeName metrics = .ok t → ∀ i : Instance, i.type = t →
      (∀ (p : i.Position) levels, i.valueWithin? (levels + 1) p = some (i.valueAt p)) ∧
      (∀ m ∈ metrics, ∀ numerator denominator, m.kind = .derived numerator denominator →
        ∃ x y, i.read numerator = .ok x ∧ i.read denominator = .ok y ∧
          i.read m.name = .ok (if y.isZero then .zero else x.div y)) ∧
      ∀ now, (i.sample now).values.length = metrics.length ∧
        ∀ (index : Nat) m, metrics[index]? = some m →
          ∃ x, (i.sample now).values[index]? = some x ∧ i.read m.name = .ok x := by
  constructor
  · constructor
    · rintro ⟨t, built⟩
      exact (StatisticsType.ofMetrics_eq_ok_iff.mp built).1
    · intro proper
      exact ⟨_, StatisticsType.ofMetrics_eq_ok_iff.mpr ⟨proper, rfl⟩⟩
  · intro t built i typed
    obtain ⟨proper, same⟩ := StatisticsType.ofMetrics_eq_ok_iff.mp built
    have members : metrics = i.type.metrics := by rw [typed, same]
    subst members
    refine ⟨valueWithin?_of_proper proper, ?_, ?_⟩
    · intro m member numerator denominator kind
      exact read_of_derived proper member kind
    · intro now
      exact ⟨i.length_values, fun index m there => read_of_sampled proper now there⟩

/-- Quotients before and after their operands, of a counter that has wrapped around and of a NaN. -/
theorem built_types_evaluate_around_operands :
    let metrics : List Metric :=
      [⟨"time per get", "", false, .derived "time" "gets"⟩, ⟨"gets", "operations", true, .intCounter⟩,
        ⟨"time", "nanoseconds", false, .longCounter⟩, ⟨"load", "", false, .gauge⟩,
        ⟨"unity", "", true, .derived "load" "load"⟩]
    let i : Instance := ⟨⟨"Cache", metrics⟩, "thread_1", .thread 1,
      #v[⟨0⟩, ⟨0x100000004⟩, ⟨10⟩, ⟨0x7ff8000000000001⟩, ⟨0⟩]⟩
    StatisticsType.ofMetrics "Cache" metrics = .ok i.type ∧
      i.read "time per get" = .ok ⟨0x4004000000000000⟩ ∧ i.read "unity" = .ok .nan ∧
      (∀ (p : i.Position) levels, i.valueWithin? (levels + 1) p = some (i.valueAt p)) ∧
      (∃ x y, i.read "time" = .ok x ∧ i.read "gets" = .ok y ∧
        i.read "time per get" = .ok (if y.isZero then .zero else x.div y)) ∧
      ∃ x, (i.sample 0).values[4]? = some x ∧ i.read "unity" = .ok x := by
  intro metrics i
  obtain ⟨builds, evaluate⟩ := built_types_evaluate "Cache" metrics
  obtain ⟨t, built⟩ := builds.mpr (by decide +kernel)
  obtain ⟨-, rfl⟩ := StatisticsType.ofMetrics_eq_ok_iff.mp built
  obtain ⟨values, quotients, samples⟩ := evaluate i.type built i rfl
  exact ⟨built, by decide +kernel, by decide +kernel, values,
    quotients _ List.mem_cons_self "time" "gets" rfl, (samples 0).2 4 _ rfl⟩

end Instance

end Coordination
