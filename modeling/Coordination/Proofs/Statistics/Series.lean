import Coordination.Proofs.Binary64.Extremes
import Coordination.Proofs.Table
import Coordination.Statistics.Aggregate

/-!
Series of samples. Every instance has a series of its own, in the order of time, and samples of the same
time stay in the order in which the archives have them.
-/

namespace Coordination

def Sample.Within (window : Option TimeWindow) (s : Sample) : Prop :=
  ∀ w ∈ window, w.startMs ≤ s.timestampMs ∧ s.timestampMs ≤ w.endMs

instance (window : Option TimeWindow) (s : Sample) : Decidable (s.Within window) :=
  inferInstanceAs (Decidable (∀ w ∈ window, _))

theorem Sample.within_none (s : Sample) : s.Within none := nofun

namespace AggregateReport

/-- Samples in an archive that are of this instance and count for a type. -/
def samplesIn (window : Option TimeWindow) (t : StatisticsType) (key : SeriesKey) (a : Archive) :
    List Sample :=
  if a.host = key.host ∧ a.processId = key.processId then
    a.samples.filter fun s => s.typeName = t.name ∧ s.instanceName = key.instanceName ∧
      s.Within window ∧ s.values.length = t.metrics.length
  else []

/-- Samples of an instance that count for a type, archive by archive. -/
def samplesOf (archives : List Archive) (window : Option TimeWindow) (t : StatisticsType)
    (key : SeriesKey) : List Sample :=
  archives.flatMap (samplesIn window t key)

/-- The sample has the largest time, and among those of the same time it stands last. -/
def IsLatest (samples : List Sample) (s : Sample) : Prop :=
  ∃ before after, samples = before ++ s :: after ∧
    (∀ earlier ∈ before, earlier.timestampMs ≤ s.timestampMs) ∧
    ∀ later ∈ after, later.timestampMs < s.timestampMs

theorem mem_samplesIn {window : Option TimeWindow} {t : StatisticsType} {key : SeriesKey}
    {a : Archive} {s : Sample} :
    s ∈ samplesIn window t key a ↔
      (a.host = key.host ∧ a.processId = key.processId) ∧ s ∈ a.samples ∧ s.typeName = t.name ∧
        s.instanceName = key.instanceName ∧ s.Within window ∧
        s.values.length = t.metrics.length := by
  rw [samplesIn]
  split <;> simp_all

/-! Grouping. -/

theorem counts_iff {t : StatisticsType} {window : Option TimeWindow} {s : Sample} :
    counts t window s ↔
      s.typeName = t.name ∧ s.Within window ∧ s.values.length = t.metrics.length := by
  simp [counts, Sample.Within, TimeWindow.contains, Option.all_eq_true, and_assoc]

/-- Each instance is filed with all of its samples, in the order in which they come. -/
theorem get?_seriesOf (samples : List (SeriesKey × Sample)) (key : SeriesKey) :
    (seriesOf samples).get? key =
      match (samples.filter fun entry => entry.1 = key).map (·.2) with
      | [] => none
      | series => some series := by
  induction samples using List.reverseRecOn with
  | nil => rfl
  | append_singleton earlier entry induction =>
      have grown : seriesOf (earlier ++ [entry]) =
          (seriesOf earlier).modify entry.1 [] (· ++ [entry.2]) := by
        simp only [seriesOf, List.foldl_append, List.foldl_cons, List.foldl_nil]
      rw [grown, Table.get?_modify, List.filter_append, List.map_append]
      by_cases same : key = entry.1
      · subst same
        rw [if_pos rfl, induction, List.filter_cons_of_pos (by simp)]
        cases (earlier.filter fun other => other.1 = entry.1).map (·.2) <;> simp
      · rw [if_neg same, induction, List.filter_cons_of_neg (by simpa using Ne.symm same),
          List.filter_nil, List.map_nil, List.append_nil]

theorem filter_countedSamples (archives : List Archive) (window : Option TimeWindow)
    (t : StatisticsType) (key : SeriesKey) :
    ((countedSamples t window archives).filter fun entry => entry.1 = key).map (·.2) =
      samplesOf archives window t key := by
  obtain ⟨host, processId, name⟩ := key
  rw [countedSamples, samplesOf, List.filter_flatMap, List.map_flatMap]
  congr 1
  funext a
  rw [samplesIn, List.filter_map, List.map_map, List.filter_filter]
  change List.map id _ = _
  rw [List.map_id]
  by_cases here : a.host = host ∧ a.processId = processId
  · rw [if_pos here]
    refine List.filter_congr fun s _ => ?_
    rw [Bool.eq_iff_iff]
    simp [counts_iff, here, and_left_comm]
  · rw [if_neg here, List.filter_eq_nil_iff]
    intro s _
    simp only [Function.comp_apply, SeriesKey.mk.injEq, Bool.and_eq_true, decide_eq_true_eq]
    exact fun both => here ⟨both.1.1, both.1.2.1⟩

theorem get?_seriesOf_countedSamples (archives : List Archive) (window : Option TimeWindow)
    (t : StatisticsType) (key : SeriesKey) (series : Series) :
    (seriesOf (countedSamples t window archives)).get? key = some series ↔
      series = samplesOf archives window t key ∧ series ≠ [] := by
  rw [get?_seriesOf, filter_countedSamples]
  cases samplesOf archives window t key with
  | nil => simp
  | cons s rest =>
      simp only [Option.some.injEq, ne_eq]
      constructor
      · rintro rfl
        exact ⟨rfl, nofun⟩
      · exact fun both => both.1.symm

/-! Order in time. -/

theorem inOrder_perm (series : Series) : (inOrder series).Perm series := List.mergeSort_perm _ _

theorem decide_le_trans (a b c : Sample) (first : decide (a.timestampMs ≤ b.timestampMs) = true)
    (second : decide (b.timestampMs ≤ c.timestampMs) = true) :
    decide (a.timestampMs ≤ c.timestampMs) = true := by
  rw [decide_eq_true_eq] at first second ⊢
  exact UInt64.le_trans first second

theorem decide_le_total (a b : Sample) :
    (decide (a.timestampMs ≤ b.timestampMs) || decide (b.timestampMs ≤ a.timestampMs)) = true := by
  rw [Bool.or_eq_true, decide_eq_true_eq, decide_eq_true_eq]
  exact UInt64.le_total a.timestampMs b.timestampMs

theorem pairwise_inOrder (series : Series) :
    (inOrder series).Pairwise fun a b => a.timestampMs ≤ b.timestampMs :=
  (List.pairwise_mergeSort decide_le_trans decide_le_total series).imp of_decide_eq_true

theorem inOrder_of_pairwise {series : Series}
    (sorted : series.Pairwise fun a b => a.timestampMs ≤ b.timestampMs) : inOrder series = series :=
  List.mergeSort_of_pairwise (sorted.imp fun below => decide_eq_true below)

def atTime (series : Series) (moment : UInt64) : Series :=
  series.filter fun s => s.timestampMs = moment

theorem mem_atTime {series : Series} {moment : UInt64} {s : Sample} :
    s ∈ atTime series moment ↔ s ∈ series ∧ s.timestampMs = moment := by
  simp [atTime]

/-- Samples of the same time stay as they are. -/
theorem atTime_inOrder (series : Series) (moment : UInt64) :
    atTime (inOrder series) moment = atTime series moment := by
  have tied : (atTime series moment).Pairwise fun a b =>
      decide (a.timestampMs ≤ b.timestampMs) = true := by
    refine List.pairwise_of_forall_mem_list fun a first b second => ?_
    rw [decide_eq_true_eq, (mem_atTime.mp first).2, (mem_atTime.mp second).2]
    exact UInt64.le_refl _
  have kept : (atTime (atTime series moment) moment).Sublist (atTime (inOrder series) moment) :=
    (List.sublist_mergeSort decide_le_trans decide_le_total tied List.filter_sublist).filter _
  have idle : atTime (atTime series moment) moment = atTime series moment := by
    simp only [atTime, List.filter_filter, Bool.and_self]
  rw [idle] at kept
  exact (kept.eq_of_length ((inOrder_perm series).filter _).length_eq.symm).symm

theorem mem_iff_of_atTime {first second : Series}
    (same : ∀ moment, atTime first moment = atTime second moment) (s : Sample) :
    s ∈ first ↔ s ∈ second := by
  have filtered : s ∈ atTime first s.timestampMs ↔ s ∈ atTime second s.timestampMs := by rw [same]
  simpa [mem_atTime] using filtered

/-- What is in order of time is determined by what there is of each time. -/
theorem eq_of_atTime {first second : Series}
    (sorted : first.Pairwise fun a b => a.timestampMs ≤ b.timestampMs)
    (alsoSorted : second.Pairwise fun a b => a.timestampMs ≤ b.timestampMs)
    (same : ∀ moment, atTime first moment = atTime second moment) : first = second := by
  induction first generalizing second with
  | nil =>
      refine (List.eq_nil_iff_forall_not_mem.mpr fun s member => ?_).symm
      exact List.not_mem_nil ((mem_iff_of_atTime same s).mpr member)
  | cons a first induction =>
      have within := mem_iff_of_atTime same
      cases second with
      | nil => exact absurd ((within a).mp List.mem_cons_self) List.not_mem_nil
      | cons b second =>
          obtain ⟨leRest, restSorted⟩ := List.pairwise_cons.mp sorted
          obtain ⟨leOthers, othersSorted⟩ := List.pairwise_cons.mp alsoSorted
          have headTimes : a.timestampMs = b.timestampMs := by
            apply UInt64.le_antisymm
            · rcases List.mem_cons.mp ((within b).mpr List.mem_cons_self) with rfl | later
              · exact UInt64.le_refl _
              · exact leRest b later
            · rcases List.mem_cons.mp ((within a).mp List.mem_cons_self) with rfl | later
              · exact UInt64.le_refl _
              · exact leOthers a later
          have heads : a = b := by
            have filtered := same a.timestampMs
            rw [atTime, atTime, List.filter_cons_of_pos (by simp),
              List.filter_cons_of_pos (by simp [headTimes])] at filtered
            exact (List.cons.inj filtered).1
          subst heads
          have tails (moment : UInt64) : atTime first moment = atTime second moment := by
            have filtered := same moment
            rw [atTime, atTime, List.filter_cons, List.filter_cons] at filtered
            split at filtered
            · exact (List.cons.inj filtered).2
            · exact filtered
          rw [induction restSorted othersSorted tails]

theorem isLatest_of_getLast? {series : Series} {s : Sample}
    (last : (inOrder series).getLast? = some s) : IsLatest series s := by
  obtain ⟨earlier, ordered⟩ := List.getLast?_eq_some_iff.mp last
  have below (other : Sample) (member : other ∈ series) : other.timestampMs ≤ s.timestampMs := by
    have sorted := pairwise_inOrder series
    rw [← (inOrder_perm series).mem_iff, ordered, List.mem_append, List.mem_singleton] at member
    rw [ordered, List.pairwise_append] at sorted
    rcases member with before | rfl
    · exact sorted.2.2 other before s List.mem_cons_self
    · exact UInt64.le_refl _
  -- Among the samples of the last time it is the last one, before as well as after sorting.
  have tied := atTime_inOrder series s.timestampMs
  rw [ordered, atTime, atTime, List.filter_append, List.filter_cons_of_pos (by simp),
    List.filter_nil, eq_comm, List.filter_eq_append_iff] at tied
  obtain ⟨front, back, rfl, -, inBack⟩ := tied
  obtain ⟨middle, after, rfl, -, -, none⟩ := List.filter_eq_cons_iff.mp inBack
  refine ⟨front ++ middle, after, (List.append_assoc _ _ _).symm, ?_, ?_⟩
  · intro other member
    refine below other ?_
    rcases List.mem_append.mp member with inFront | inMiddle
    · exact List.mem_append_left _ inFront
    · exact List.mem_append_right _ (List.mem_append_left _ inMiddle)
  · intro other member
    have differs : other.timestampMs ≠ s.timestampMs := by
      simpa using List.filter_eq_nil_iff.mp none other member
    have le := below other
      (List.mem_append_right _ (List.mem_append_right _ (List.mem_cons_of_mem _ member)))
    exact UInt64.lt_of_le_of_ne le differs

/-! Archives in another order. -/

theorem flatMap_perm {α β : Type} {first second : List α} (perm : first.Perm second)
    {f : α → List β} (exclusive : first.Pairwise fun a b => f a = [] ∨ f b = []) :
    first.flatMap f = second.flatMap f := by
  have symmetric {a b : α} (either : f a = [] ∨ f b = []) : f b = [] ∨ f a = [] := either.symm
  induction perm with
  | nil => rfl
  | cons a _ induction =>
      rw [List.flatMap_cons, List.flatMap_cons, induction (List.pairwise_cons.mp exclusive).2]
  | swap a b rest =>
      simp only [List.flatMap_cons]
      rcases (List.pairwise_cons.mp exclusive).1 a List.mem_cons_self with empty | empty
      · simp [empty]
      · simp [empty]
  | trans perm _ first second =>
      exact (first exclusive).trans (second (perm.pairwise exclusive symmetric))

/-! Values. -/

theorem getElem?_values {index : Nat} {s : Sample} (inside : index < s.values.length) :
    s.values[index]? = some (valueAt index s) := by
  rw [valueAt, List.getElem?_eq_getElem inside, Option.getD_some]

theorem bounds_eq (index : Nat) (series : Series) :
    bounds index series =
      ((series.map (valueAt index)).foldl Binary64.min .infinity,
        (series.map (valueAt index)).foldl Binary64.max .negativeInfinity) := by
  rw [bounds]
  generalize Binary64.infinity = low
  generalize Binary64.negativeInfinity = high
  induction series generalizing low high with
  | nil => rfl
  | cons s series induction =>
      rw [List.foldl_cons, induction]
      rfl

section

variable {index : Nat} {series : Series} (inside : ∀ s ∈ series, index < s.values.length)

include inside

theorem mem_values_inOrder (v : Binary64) :
    v ∈ (inOrder series).map (valueAt index) ↔ v ∈ series.filterMap (·.values[index]?) := by
  rw [((inOrder_perm series).map _).mem_iff]
  simp only [List.mem_map, List.mem_filterMap]
  refine exists_congr fun s => and_congr_right fun member => ?_
  rw [getElem?_values (inside s member), Option.some.injEq]

theorem isMinimum_bounds :
    Binary64.IsMinimum (series.filterMap (·.values[index]?)) (bounds index (inOrder series)).1 := by
  rw [bounds_eq, ← Binary64.isMinimum_congr (mem_values_inOrder inside)]
  exact Binary64.isMinimum_foldl _

theorem isMaximum_bounds :
    Binary64.IsMaximum (series.filterMap (·.values[index]?)) (bounds index (inOrder series)).2 := by
  rw [bounds_eq, ← Binary64.isMaximum_congr (mem_values_inOrder inside)]
  exact Binary64.isMaximum_foldl _

theorem isLatest_lastValue (nonempty : series ≠ []) :
    ∃ s, IsLatest series s ∧ s.values[index]? = some (lastValue index (inOrder series)) := by
  have some : inOrder series ≠ [] := by
    rw [← List.length_pos_iff, (inOrder_perm series).length_eq]
    exact List.length_pos_iff.mpr nonempty
  have last := List.getLast?_eq_some_getLast some
  refine ⟨_, isLatest_of_getLast? last, ?_⟩
  rw [lastValue, last, Option.elim_some]
  exact getElem?_values (inside _ ((inOrder_perm series).mem_iff.mp (List.getLast_mem some)))

end

end AggregateReport

end Coordination
