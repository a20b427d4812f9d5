import Coordination.Proofs.Statistics.Series
import Coordination.Proofs.Statistics.Types

/-!
The report on a list of archives. It has an entry for every metric of every declared type, and the
order of the archives does not matter unless samples of one instance share a time.
-/

namespace Coordination.AggregateReport

/-- The metrics of some types, each with its type and its place there. -/
def columns (types : List StatisticsType) : List (StatisticsType × Metric × Nat) :=
  types.flatMap fun t => t.metrics.zipIdx.map fun (m, index) => (t, m, index)

/-! Instances. -/

/-- Instances with samples that count for a type. -/
def instancesOf (archives : List Archive) (window : Option TimeWindow) (t : StatisticsType) :
    List SeriesKey :=
  (seriesOf (countedSamples t window archives)).keys

section

variable (archives : List Archive) (window : Option TimeWindow) (t : StatisticsType)

theorem pairwise_instancesOf :
    (instancesOf archives window t).Pairwise fun a b => compare a b = .lt :=
  Table.pairwise_keys _

theorem mem_instancesOf (key : SeriesKey) :
    key ∈ instancesOf archives window t ↔ samplesOf archives window t key ≠ [] := by
  rw [instancesOf, Table.mem_keys_iff]
  constructor
  · rintro ⟨series, found⟩
    obtain ⟨rfl, some⟩ := (get?_seriesOf_countedSamples _ _ _ _ _).mp found
    exact some
  · intro some
    exact ⟨_, (get?_seriesOf_countedSamples _ _ _ _ _).mpr ⟨rfl, some⟩⟩

theorem values_seriesOf :
    (seriesOf (countedSamples t window archives)).values =
      (instancesOf archives window t).map (samplesOf archives window t) := by
  apply Table.values_eq_map
  intro key series member
  exact ((get?_seriesOf_countedSamples _ _ _ _ _).mp ((Table.mem_entries_iff _ _ _).mp member)).1

theorem foldType_eq :
    foldType archives window t = t.metrics.zipIdx.map fun (m, index) =>
      foldMetric t
        ((instancesOf archives window t).map fun key => inOrder (samplesOf archives window t key))
        m index := by
  simp only [foldType, values_seriesOf, List.map_map]
  rfl

end

/-! Entries. -/

/-- What the entry of a metric says about the samples that count for its type. -/
structure Summarizes (samples : SeriesKey → List Sample) (t : StatisticsType) (m : Metric)
    (index : Nat) (e : MetricAggregate) : Prop where
  typeName : e.typeName = t.name
  metric : e.metric = m.name
  unit : e.unit = m.unit
  largerIsBetter : e.largerIsBetter = m.largerIsBetter
  values : ∃ (keys : List SeriesKey) (last least greatest : SeriesKey → Binary64),
    keys.Pairwise (fun a b => compare a b = .lt) ∧
    (∀ key, key ∈ keys ↔ samples key ≠ []) ∧
    (∀ key ∈ keys, ∃ s, IsLatest (samples key) s ∧ s.values[index]? = some (last key)) ∧
    (∀ key ∈ keys,
      Binary64.IsMinimum ((samples key).filterMap (·.values[index]?)) (least key) ∧
      Binary64.IsMaximum ((samples key).filterMap (·.values[index]?)) (greatest key)) ∧
    e.instances = keys.length ∧
    e.sum = (keys.map last).foldl .add .zero ∧
    e.maxMinusMin = (keys.map fun key => (greatest key).sub (least key)).foldl .add .zero ∧
    e.mean = if e.instances = 0 then .zero else e.sum.div (.ofNat e.instances)

theorem summarizes_foldMetric {archives : List Archive} {window : Option TimeWindow}
    {t : StatisticsType} {m : Metric} {index : Nat} (inside : index < t.metrics.length) :
    Summarizes (samplesOf archives window t) t m index
      (foldMetric t
        ((instancesOf archives window t).map fun key => inOrder (samplesOf archives window t key))
        m index) where
  typeName := rfl
  metric := rfl
  unit := rfl
  largerIsBetter := rfl
  values := by
    have wide (key : SeriesKey) (s : Sample) (member : s ∈ samplesOf archives window t key) :
        index < s.values.length := by
      obtain ⟨a, -, found⟩ := List.mem_flatMap.mp member
      rw [(mem_samplesIn.mp found).2.2.2.2.2]
      exact inside
    refine ⟨instancesOf archives window t,
      fun key => lastValue index (inOrder (samplesOf archives window t key)),
      fun key => (bounds index (inOrder (samplesOf archives window t key))).1,
      fun key => (bounds index (inOrder (samplesOf archives window t key))).2,
      pairwise_instancesOf _ _ _, mem_instancesOf _ _ _, ?_, ?_, ?_, ?_, ?_, ?_⟩
    · intro key member
      exact isLatest_lastValue (wide key) ((mem_instancesOf _ _ _ key).mp member)
    · intro key _
      exact ⟨isMinimum_bounds (wide key), isMaximum_bounds (wide key)⟩
    · exact List.length_map _
    · exact congrArg total List.map_map
    · exact congrArg total List.map_map
    · exact if_congr List.isEmpty_iff_length_eq_zero rfl rfl

/-! Reports. -/

theorem mem_columns {types : List StatisticsType} {t : StatisticsType} {m : Metric} {index : Nat} :
    (t, m, index) ∈ columns types ↔ t ∈ types ∧ t.metrics[index]? = some m := by
  simp only [columns, List.mem_flatMap, List.mem_map, Prod.exists, Prod.mk.injEq,
    List.mem_zipIdx_iff_getElem?]
  constructor
  · rintro ⟨_, member, _, _, found, rfl, rfl, rfl⟩
    exact ⟨member, found⟩
  · rintro ⟨member, found⟩
    exact ⟨t, member, m, index, found, rfl, rfl, rfl⟩

theorem flatMap_foldType (archives : List Archive) (window : Option TimeWindow)
    (types : List StatisticsType) :
    types.flatMap (foldType archives window) = (columns types).map fun (t, m, index) =>
      foldMetric t
        ((instancesOf archives window t).map fun key => inOrder (samplesOf archives window t key))
        m index := by
  rw [columns, List.map_flatMap]
  refine congrArg (List.flatMap · types) (funext fun t => ?_)
  rw [foldType_eq, List.map_map]
  rfl

theorem ofArchives_of_mergedTypes {archives : List Archive} {types : Table String StatisticsType}
    (window : Option TimeWindow) (merged : mergedTypes archives = .ok types) :
    ofArchives archives window =
      .ok ⟨archives.length, window, types.values.flatMap (foldType archives window)⟩ := by
  rw [ofArchives, merged]
  rfl

theorem ofArchives_of_mismatch {archives : List Archive} {fault : Fault}
    (window : Option TimeWindow) (mismatch : mergedTypes archives = .error fault) :
    ofArchives archives window = .error fault := by
  rw [ofArchives, mismatch]
  rfl

/-- The report fails if two types of one name differ. Otherwise it has one entry for every metric of
every declared type, by the names of the types and then in the order of their metrics. -/
theorem mismatch_or_summaries (archives : List Archive) (window : Option TimeWindow) :
    (∃ s ∈ declarations archives, ∃ t ∈ declarations archives, s.name = t.name ∧ s ≠ t ∧
      ofArchives archives window = .error (.descriptorMismatch t.name)) ∨
    (∀ s ∈ declarations archives, ∀ t ∈ declarations archives, s.name = t.name → s = t) ∧
    ∃ types metrics,
      types.Pairwise (fun s t => s.name < t.name) ∧
      (∀ t, t ∈ types ↔ t ∈ declarations archives) ∧
      ofArchives archives window = .ok ⟨archives.length, window, metrics⟩ ∧
      List.Forall₂ (fun (t, m, index) e => Summarizes (samplesOf archives window t) t m index e)
        (columns types) metrics := by
  rcases mergedTypes_cases archives with
    ⟨types, merged, known⟩ | ⟨s, first, t, second, same, differ, mismatch⟩
  · refine .inr ⟨fun s first t second => known.unique first second, types.values, _,
      known.pairwise_values, known.mem_values_iff, ofArchives_of_mergedTypes window merged, ?_⟩
    rw [flatMap_foldType, List.forall₂_map_right_iff, List.forall₂_same]
    rintro ⟨t, m, index⟩ member
    obtain ⟨inside, -⟩ := List.getElem?_eq_some_iff.mp (mem_columns.mp member).2
    exact summarizes_foldMetric inside
  · exact .inl ⟨s, first, t, second, same, differ, ofArchives_of_mismatch window mismatch⟩

/-! Archives in another order. -/

/-- Two archives of one process have no samples of one instance with the same time. -/
def Untied (window : Option TimeWindow) (a b : Archive) : Prop :=
  a.host = b.host → a.processId = b.processId →
    ∀ s ∈ a.samples, ∀ r ∈ b.samples, s.typeName = r.typeName → s.instanceName = r.instanceName →
      s.Within window → r.Within window → s.timestampMs ≠ r.timestampMs

instance (window : Option TimeWindow) (a b : Archive) : Decidable (Untied window a b) :=
  inferInstanceAs (Decidable (_ → _ → _))

section

variable {archives permuted : List Archive} (perm : archives.Perm permuted)
  (window : Option TimeWindow)

include perm

theorem mem_declarations_of_perm (t : StatisticsType) :
    t ∈ declarations archives ↔ t ∈ declarations permuted :=
  (perm.flatMap_right _).mem_iff

theorem instancesOf_of_perm (t : StatisticsType) :
    instancesOf archives window t = instancesOf permuted window t := by
  apply eq_of_ascending id (pairwise_instancesOf _ _ _) (pairwise_instancesOf _ _ _)
  intro key
  have samples : (samplesOf archives window t key).Perm (samplesOf permuted window t key) :=
    perm.flatMap_right _
  rw [mem_instancesOf, mem_instancesOf, ne_eq, ne_eq, ← List.length_eq_zero_iff,
    ← List.length_eq_zero_iff, samples.length_eq]

/-- Of one instance and one time, all samples are in the same archive. -/
theorem inOrder_samplesOf_of_perm (untied : archives.Pairwise (Untied window)) (t : StatisticsType)
    (key : SeriesKey) :
    inOrder (samplesOf archives window t key) = inOrder (samplesOf permuted window t key) := by
  refine eq_of_atTime (pairwise_inOrder _) (pairwise_inOrder _) fun moment => ?_
  rw [atTime_inOrder, atTime_inOrder, samplesOf, samplesOf, atTime, atTime, List.filter_flatMap,
    List.filter_flatMap]
  refine flatMap_perm perm (untied.imp fun {a b} apart => ?_)
  by_contra both
  obtain ⟨first, second⟩ := not_or.mp both
  obtain ⟨s, found⟩ := List.exists_mem_of_ne_nil _ first
  obtain ⟨r, alsoFound⟩ := List.exists_mem_of_ne_nil _ second
  obtain ⟨sHere, sTime⟩ := mem_atTime.mp found
  obtain ⟨rHere, rTime⟩ := mem_atTime.mp alsoFound
  obtain ⟨⟨host, processId⟩, sMember, sType, sName, sWithin, -⟩ := mem_samplesIn.mp sHere
  obtain ⟨⟨sameHost, sameProcess⟩, rMember, rType, rName, rWithin, -⟩ := mem_samplesIn.mp rHere
  exact apart (host.trans sameHost.symm) (processId.trans sameProcess.symm) s sMember r rMember
    (sType.trans rType.symm) (sName.trans rName.symm) sWithin rWithin (sTime.trans rTime.symm)

theorem foldType_of_perm (untied : archives.Pairwise (Untied window)) :
    foldType archives window = foldType permuted window := by
  funext t
  simp only [foldType_eq, instancesOf_of_perm perm, inOrder_samplesOf_of_perm perm window untied]

/-- Where no samples are tied, archives in another order give the same report, or fail in the same
way. -/
theorem report_of_perm (untied : archives.Pairwise (Untied window)) :
    (∃ report, ofArchives archives window = .ok report ∧ ofArchives permuted window = .ok report) ∨
      ∃ name other, ofArchives archives window = .error (.descriptorMismatch name) ∧
        ofArchives permuted window = .error (.descriptorMismatch other) := by
  have declared := mem_declarations_of_perm perm
  rcases mergedTypes_cases archives with
    ⟨types, merged, known⟩ | ⟨s, first, t, second, same, differ, mismatch⟩
  · rcases mergedTypes_cases permuted with
      ⟨others, alsoMerged, alsoKnown⟩ | ⟨s, first, t, second, same, differ, -⟩
    · refine .inl ⟨_, ofArchives_of_mergedTypes window merged, ?_⟩
      rw [ofArchives_of_mergedTypes window alsoMerged, alsoKnown.eq known fun t => (declared t).symm,
        perm.length_eq, foldType_of_perm perm window untied]
    · exact absurd (known.unique ((declared s).mpr first) ((declared t).mpr second) same) differ
  · rcases mergedTypes_cases permuted with ⟨others, -, known⟩ | ⟨_, -, other, -, -, -, alsoMismatch⟩
    · exact absurd (known.unique ((declared s).mp first) ((declared t).mp second) same) differ
    · exact .inr ⟨t.name, other.name, ofArchives_of_mismatch window mismatch,
        ofArchives_of_mismatch window alsoMismatch⟩

end

/-- Two archives of one process that took over from each other, and one of another process. -/
theorem report_of_three_archives :
    let t : StatisticsType := ⟨"Cache", [⟨"puts", "operations", true, .longCounter⟩]⟩
    let first : Archive := ⟨1, "node", [t],
      [⟨"Cache", "thread_1", 100, [.ofNat 10]⟩, ⟨"Cache", "thread_1", 100, [.ofNat 12]⟩]⟩
    let second : Archive := ⟨1, "node", [t], [⟨"Cache", "thread_1", 200, [.ofNat 30]⟩]⟩
    let other : Archive := ⟨2, "node", [], [⟨"Cache", "thread_1", 100, [.ofNat 5]⟩]⟩
    [first, second, other].Perm [other, second, first] ∧
      [first, second, other].Pairwise (Untied none) ∧
      ∃ report, ofArchives [first, second, other] none = .ok report ∧
        ofArchives [other, second, first] none = .ok report := by
  intro t first second other
  have perm : [first, second, other].Perm [other, second, first] := by decide +kernel
  have untied : [first, second, other].Pairwise (Untied none) := by decide +kernel
  refine ⟨perm, untied, ?_⟩
  rcases report_of_perm perm none untied with same | ⟨name, -, mismatch, -⟩
  · exact same
  · have done : (ofArchives [first, second, other] none).isOk = true := by decide +kernel
    rw [mismatch] at done
    cases done

end Coordination.AggregateReport
