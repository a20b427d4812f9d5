import Coordination.Proofs.Except
import Coordination.Statistics.Metric

/-!
Types that may be built. Their metrics have names of their own, and a derived metric is the quotient of
two that are stored.
-/

namespace Coordination

theorem MetricKind.isStored_iff {kind : MetricKind} :
    kind.isStored = true ↔ kind = .intCounter ∨ kind = .longCounter ∨ kind = .gauge := by
  cases kind <;> simp [isStored]

namespace StatisticsType

def Stores (metrics : List Metric) (name : String) : Prop :=
  ∃ m ∈ metrics, m.name = name ∧
    (m.kind = .intCounter ∨ m.kind = .longCounter ∨ m.kind = .gauge)

instance (metrics : List Metric) (name : String) : Decidable (Stores metrics name) :=
  inferInstanceAs (Decidable (∃ m ∈ metrics, _))

/-- What is asked of the metrics of a type. An operand may stand before or after what is derived. -/
structure Proper (metrics : List Metric) : Prop where
  distinct : (metrics.map (·.name)).Nodup
  stored : ∀ m ∈ metrics, ∀ numerator denominator, m.kind = .derived numerator denominator →
    Stores metrics numerator ∧ Stores metrics denominator

theorem forall_operands_iff {kind : MetricKind} {holds : String → Prop} :
    (∀ operand ∈ operands kind, holds operand) ↔
      ∀ numerator denominator, kind = .derived numerator denominator →
        holds numerator ∧ holds denominator := by
  cases kind with
  | intCounter | longCounter | gauge => simp [operands]
  | derived numerator denominator =>
      simp only [operands, List.forall_mem_cons, List.not_mem_nil, MetricKind.derived.injEq]
      constructor
      · rintro ⟨first, second, -⟩ _ _ ⟨rfl, rfl⟩
        exact ⟨first, second⟩
      · intro both
        obtain ⟨first, second⟩ := both _ _ ⟨rfl, rfl⟩
        exact ⟨first, second, nofun⟩

theorem proper_iff {metrics : List Metric} :
    Proper metrics ↔ (metrics.map (·.name)).Nodup ∧
      ∀ m ∈ metrics, ∀ operand ∈ operands m.kind, Stores metrics operand := by
  simp only [forall_operands_iff]
  exact ⟨fun ⟨distinct, stored⟩ => ⟨distinct, stored⟩, fun ⟨distinct, stored⟩ => ⟨distinct, stored⟩⟩

instance (metrics : List Metric) : Decidable (Proper metrics) := decidable_of_iff' _ proper_iff

theorem stores_eq_true_iff {metrics : List Metric} {name : String} :
    stores metrics name = true ↔ Stores metrics name := by
  simp [stores, Stores, MetricKind.isStored_iff]

theorem firstNotStored?_eq_none_iff {metrics : List Metric} :
    firstNotStored? metrics = none ↔
      ∀ m ∈ metrics, ∀ operand ∈ operands m.kind, Stores metrics operand := by
  rw [firstNotStored?, List.findSome?_eq_none_iff]
  refine forall₂_congr fun m _ => ?_
  rw [Option.map_eq_none_iff, List.find?_eq_none]
  simp only [Bool.not_eq_true', Bool.not_eq_false, stores_eq_true_iff]

theorem ofMetrics_eq_ok_iff {name : String} {metrics : List Metric} {t : StatisticsType} :
    ofMetrics name metrics = .ok t ↔ Proper metrics ∧ t = ⟨name, metrics⟩ := by
  rw [proper_iff, ← Text.firstRepeated?_eq_none_iff, ← firstNotStored?_eq_none_iff, ofMetrics]
  cases Text.firstRepeated? (metrics.map (·.name)) with
  | some repeated => simp
  | none =>
      cases firstNotStored? metrics with
      | some operand => simp
      | none => simp [eq_comm]

end StatisticsType

end Coordination
