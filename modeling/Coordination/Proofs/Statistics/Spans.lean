import Coordination.Proofs.Binary64.Sums
import Coordination.Proofs.Statistics.Aggregate

/-!
What instances contribute to the span of a metric. An instance with a number among its values has a least
and a greatest one, and contributes nothing below zero. One that was sampled with no number at all keeps
the bounds that the search for them starts from, and contributes negative infinity.
-/

namespace Coordination.AggregateReport

/-- Values of a metric in some samples. -/
def valuesAt (index : Nat) (samples : List Sample) : List Binary64 :=
  samples.filterMap (·.values[index]?)

def HasNumber (values : List Binary64) : Prop := ∃ v ∈ values, v.isNaN = false

section

variable {values : List Binary64} {low high : Binary64}

theorem le_of_hasNumber (least : Binary64.IsMinimum values low)
    (greatest : Binary64.IsMaximum values high) (some : HasNumber values) : low.le high = true := by
  obtain ⟨v, member, number⟩ := some
  have notAll (all : ∀ v ∈ values, v.isNaN = true) : False :=
    absurd ((all v member).symm.trans number) (by decide)
  rcases least with ⟨all, -⟩ | ⟨-, -, below⟩
  · exact (notAll all).elim
  · rcases greatest with ⟨all, -⟩ | ⟨there, numeric, -⟩
    · exact (notAll all).elim
    · exact below high there numeric

theorem bounds_of_not_hasNumber (least : Binary64.IsMinimum values low)
    (greatest : Binary64.IsMaximum values high) (none : ¬ HasNumber values) :
    low = .infinity ∧ high = .negativeInfinity := by
  constructor
  · rcases least with ⟨-, start⟩ | ⟨there, numeric, -⟩
    · exact start
    · exact absurd ⟨low, there, numeric⟩ none
  · rcases greatest with ⟨-, start⟩ | ⟨there, numeric, -⟩
    · exact start
    · exact absurd ⟨high, there, numeric⟩ none

end

section

variable {index : Nat} {series : Series} (inside : ∀ s ∈ series, index < s.values.length)

include inside

theorem bounds_of_number (some : HasNumber (valuesAt index series)) :
    (bounds index (inOrder series)).1.le (bounds index (inOrder series)).2 = true ∧
      (span index (inOrder series)).lt .zero = false := by
  have le := le_of_hasNumber (isMinimum_bounds inside) (isMaximum_bounds inside) some
  exact ⟨le, Binary64.atLeastZero_sub le⟩

theorem bounds_of_no_number (none : ¬ HasNumber (valuesAt index series)) :
    bounds index (inOrder series) = (.infinity, .negativeInfinity) ∧
      span index (inOrder series) = .negativeInfinity := by
  have start := bounds_of_not_hasNumber (isMinimum_bounds inside) (isMaximum_bounds inside) none
  have pair : bounds index (inOrder series) = (.infinity, .negativeInfinity) :=
    Prod.ext start.1 start.2
  refine ⟨pair, ?_⟩
  rw [span, pair]
  decide

end

/-- How the spans of the instances make up the entry of a metric. -/
structure SpansAddUp (samples : SeriesKey → List Sample) (index : Nat) (e : MetricAggregate) :
    Prop where
  sum : ∃ keys : List SeriesKey,
    keys.Pairwise (fun a b => compare a b = .lt) ∧ (∀ key, key ∈ keys ↔ samples key ≠ []) ∧
    e.maxMinusMin = (keys.map fun key => span index (inOrder (samples key))).foldl .add .zero
  number : ∀ key, HasNumber (valuesAt index (samples key)) →
    (bounds index (inOrder (samples key))).1.le (bounds index (inOrder (samples key))).2 = true ∧
      (span index (inOrder (samples key))).lt .zero = false
  noNumber : ∀ key, ¬ HasNumber (valuesAt index (samples key)) →
    bounds index (inOrder (samples key)) = (.infinity, .negativeInfinity) ∧
      span index (inOrder (samples key)) = .negativeInfinity
  notBelow : (∀ key, samples key ≠ [] → HasNumber (valuesAt index (samples key))) →
    e.maxMinusMin.lt .zero = false
  below : e.maxMinusMin.lt .zero = true → e.maxMinusMin = .negativeInfinity

theorem spansAddUp_of_sum {archives : List Archive} {window : Option TimeWindow} {t : StatisticsType}
    {index : Nat} (inside : index < t.metrics.length) {e : MetricAggregate}
    (sum : e.maxMinusMin = ((instancesOf archives window t).map fun key =>
      span index (inOrder (samplesOf archives window t key))).foldl .add .zero) :
    SpansAddUp (samplesOf archives window t) index e := by
  have wide (key : SeriesKey) (s : Sample) (member : s ∈ samplesOf archives window t key) :
      index < s.values.length := by
    obtain ⟨a, -, found⟩ := List.mem_flatMap.mp member
    rw [(mem_samplesIn.mp found).2.2.2.2.2]
    exact inside
  have number (key : SeriesKey) := bounds_of_number (wide key)
  have noNumber (key : SeriesKey) := bounds_of_no_number (wide key)
  refine ⟨⟨_, pairwise_instancesOf _ _ _, mem_instancesOf _ _ _, sum⟩, number, noNumber, ?_, ?_⟩
  · intro some
    rw [sum]
    refine Binary64.atLeastZero_foldl_add (List.forall_mem_map.mpr fun key member => ?_)
    exact (number key (some key ((mem_instancesOf _ _ _ key).mp member))).2
  · intro negative
    have either : e.maxMinusMin.NoFiniteLoss := by
      rw [sum]
      refine Binary64.noFiniteLoss_foldl_add (List.forall_mem_map.mpr fun key _ => ?_)
      by_cases some : HasNumber (valuesAt index (samplesOf archives window t key))
      · exact .inl (number key some).2
      · exact .inr (noNumber key some).2
    exact either.resolve_left fun atLeastZero => absurd (negative.symm.trans atLeastZero) (by decide)

/-- No entry of a report is below zero in its span where every instance was sampled with a number. -/
theorem spans_add_up (archives : List Archive) (window : Option TimeWindow) :
    (∃ name, ofArchives archives window = .error (.descriptorMismatch name)) ∨
    ∃ types metrics,
      types.Pairwise (fun s t => s.name < t.name) ∧
      (∀ t, t ∈ types ↔ t ∈ declarations archives) ∧
      ofArchives archives window = .ok ⟨archives.length, window, metrics⟩ ∧
      List.Forall₂ (fun (t, _, index) e => SpansAddUp (samplesOf archives window t) index e)
        (columns types) metrics := by
  rcases mergedTypes_cases archives with ⟨types, merged, known⟩ | ⟨_, _, t, _, _, _, mismatch⟩
  · refine .inr ⟨types.values, _, known.pairwise_values, known.mem_values_iff,
      ofArchives_of_mergedTypes window merged, ?_⟩
    rw [flatMap_foldType, List.forall₂_map_right_iff, List.forall₂_same]
    rintro ⟨t, m, index⟩ member
    obtain ⟨inside, -⟩ := List.getElem?_eq_some_iff.mp (mem_columns.mp member).2
    exact spansAddUp_of_sum inside (congrArg total List.map_map)
  · exact .inl ⟨t.name, ofArchives_of_mismatch window mismatch⟩

/-- An instance whose gauge was never a number takes the span below zero. -/
theorem no_number_counts_below_zero :
    let t : StatisticsType := ⟨"Cache", [⟨"entries", "entries", true, .gauge⟩]⟩
    let a : Archive := ⟨1, "node", [t], [⟨"Cache", "thread_1", 100, [.nan]⟩]⟩
    ∃ e, ofArchives [a] none = .ok ⟨1, none, [e]⟩ ∧ e.instances = 1 ∧
      ¬ (bounds 0 a.samples).1.le (bounds 0 a.samples).2 = true ∧
      e.maxMinusMin = .negativeInfinity ∧ e.maxMinusMin.lt .zero = true := by
  intro t a
  refine ⟨⟨"Cache", "entries", "entries", true, 1, .nan, .nan, .negativeInfinity⟩, ?_⟩
  decide +kernel

end Coordination.AggregateReport
