import Coordination.Proofs.Statistics.Aggregate

/-!
Archives that are named several times. Their samples are in the series several times too, but of each
time one whole copy comes after another, so the last value and the bounds stay what they are.
-/

namespace Coordination

open Binary64 (lesser)

/-- The second list is the first with some of its blocks repeated where they stand. -/
inductive Echoes {α : Type} : List α → List α → Prop
  | nil : Echoes [] []
  | block (block : List α) (count : Nat) {plain echoing : List α} (rest : Echoes plain echoing) :
      Echoes (block ++ plain) ((List.replicate (count + 1) block).flatten ++ echoing)

namespace Echoes

variable {α β : Type} {plain echoing : List α}

theorem getLast?_eq (echoes : Echoes plain echoing) : echoing.getLast? = plain.getLast? := by
  induction echoes with
  | nil => rfl
  | @block block count plain echoing _ induction =>
      have last : (List.replicate (count + 1) block).flatten.getLast? = block.getLast? := by
        rw [List.replicate_succ', List.flatten_append, List.flatten_singleton, List.getLast?_append]
        cases ends : block.getLast? with
        | some a => rfl
        | none =>
            rw [List.getLast?_eq_none_iff.mp ends]
            simp
      rw [List.getLast?_append, List.getLast?_append, induction, last]

theorem map (echoes : Echoes plain echoing) (f : α → β) : Echoes (plain.map f) (echoing.map f) := by
  induction echoes with
  | nil => exact .nil
  | block block count _ induction =>
      rw [List.map_append, List.map_append, List.map_flatten, List.map_replicate]
      exact .block _ _ induction

theorem foldl_lesser {rank : Binary64 → Int} {plain echoing : List Binary64}
    (echoes : Echoes plain echoing) {start : Binary64} (number : start.isNaN = false) :
    echoing.foldl (lesser rank) start = plain.foldl (lesser rank) start := by
  induction echoes generalizing start with
  | nil => rfl
  | block block count _ induction =>
      rw [List.foldl_append, List.foldl_append, Binary64.foldl_lesser_replicate number]
      exact induction (Binary64.foldl_lesser_passes number block).1

end Echoes

namespace AggregateReport

/-! Series with all samples repeated. -/

theorem inOrder_eq_append {series : Series} {least : UInt64}
    (below : ∀ s ∈ series, least ≤ s.timestampMs) :
    inOrder series =
      atTime series least ++ inOrder (series.filter fun s => s.timestampMs ≠ least) := by
  have atLeast (s : Sample) (member : s ∈ atTime series least) : s.timestampMs = least :=
    (mem_atTime.mp member).2
  refine eq_of_atTime (pairwise_inOrder _) ?_ fun moment => ?_
  · refine List.pairwise_append.mpr ⟨?_, pairwise_inOrder _, ?_⟩
    · refine List.pairwise_of_forall_mem_list fun s first r second => ?_
      rw [atLeast s first, atLeast r second]
      exact UInt64.le_refl _
    · intro s first r second
      rw [atLeast s first]
      exact below r (List.mem_of_mem_filter ((inOrder_perm _).mem_iff.mp second))
  · have split : atTime
        (atTime series least ++ inOrder (series.filter fun s => s.timestampMs ≠ least)) moment =
          atTime (atTime series least) moment ++
            atTime (series.filter fun s => s.timestampMs ≠ least) moment := by
      rw [← atTime_inOrder (series.filter _)]
      exact List.filter_append ..
    rw [split, atTime_inOrder]
    simp only [atTime, List.filter_filter]
    by_cases same : moment = least
    · subst same
      simp
    · have none : (series.filter fun s =>
          decide (s.timestampMs = moment) && decide (s.timestampMs = least)) = [] := by
        rw [List.filter_eq_nil_iff]
        grind
      rw [none, List.nil_append]
      refine List.filter_congr fun s _ => ?_
      grind

theorem filter_replicate (series : Series) (count : Nat) (keep : Sample → Bool) :
    ((List.replicate count series).flatten.filter keep) =
      (List.replicate count (series.filter keep)).flatten := by
  rw [List.filter_flatten, List.map_replicate]

theorem exists_least {series : Series} (some : series ≠ []) :
    ∃ s ∈ series, ∀ r ∈ series, s.timestampMs ≤ r.timestampMs := by
  cases ordered : inOrder series with
  | nil =>
      have same := (inOrder_perm series).length_eq
      rw [ordered] at same
      exact absurd (List.length_eq_zero_iff.mp same.symm) some
  | cons s rest =>
      have sorted := pairwise_inOrder series
      rw [ordered] at sorted
      have within (r : Sample) : r ∈ series ↔ r = s ∨ r ∈ rest := by
        rw [← (inOrder_perm series).mem_iff, ordered, List.mem_cons]
      refine ⟨s, (within s).mpr (.inl rfl), fun r member => ?_⟩
      rcases (within r).mp member with rfl | later
      · exact UInt64.le_refl _
      · exact (List.pairwise_cons.mp sorted).1 r later

/-- Sorting brings together the copies of each time, one behind the other. -/
theorem echoes_inOrder (series : Series) (count : Nat) :
    Echoes (inOrder series) (inOrder (List.replicate (count + 1) series).flatten) := by
  -- The samples of the least time are a block of their own; fewer samples are left behind it.
  induction length : series.length using Nat.strong_induction_on generalizing series with
  | h size induction =>
      by_cases empty : series = []
      · rw [empty, List.flatten_replicate_nil, inOrder_of_pairwise .nil]
        exact .nil
      · obtain ⟨first, member, least⟩ := exists_least empty
        have below (s : Sample) (among : s ∈ (List.replicate (count + 1) series).flatten) :
            first.timestampMs ≤ s.timestampMs := by
          obtain ⟨block, copy, inside⟩ := List.mem_flatten.mp among
          exact least s (List.eq_of_mem_replicate copy ▸ inside)
        have shorter : (series.filter fun s => s.timestampMs ≠ first.timestampMs).length < size := by
          rw [← length, List.length_filter_lt_length_iff_exists]
          exact ⟨first, member, by simp⟩
        rw [inOrder_eq_append least, inOrder_eq_append below, atTime, atTime, filter_replicate,
          filter_replicate]
        exact .block _ _ (induction _ shorter _ rfl)

/-! Values of repeated series. -/

theorem lastValue_of_echoes {plain echoing : Series} (echoes : Echoes plain echoing) (index : Nat) :
    lastValue index echoing = lastValue index plain := by
  rw [lastValue, lastValue, echoes.getLast?_eq]

theorem span_of_echoes {plain echoing : Series} (echoes : Echoes plain echoing) (index : Nat) :
    span index echoing = span index plain := by
  have values := echoes.map (valueAt index)
  rw [span, span, bounds_eq, bounds_eq, Binary64.min_eq_lesser, Binary64.max_eq_lesser,
    values.foldl_lesser Binary64.outranked_infinity.number,
    values.foldl_lesser Binary64.outranked_negativeInfinity.number]

theorem foldMetric_of_echoes (t : StatisticsType) (keys : List SeriesKey)
    {plain echoing : SeriesKey → Series} (echoes : ∀ key, Echoes (plain key) (echoing key))
    (m : Metric) (index : Nat) :
    foldMetric t (keys.map echoing) m index = foldMetric t (keys.map plain) m index := by
  have last : (keys.map echoing).map (lastValue index) = (keys.map plain).map (lastValue index) := by
    rw [List.map_map, List.map_map]
    exact List.map_congr_left fun key _ => lastValue_of_echoes (echoes key) index
  have spans : (keys.map echoing).map (span index) = (keys.map plain).map (span index) := by
    rw [List.map_map, List.map_map]
    exact List.map_congr_left fun key _ => span_of_echoes (echoes key) index
  simp only [foldMetric, last, spans, List.isEmpty_map, List.length_map]

/-! Types that are declared again. -/

/-- Different types are declared under the name. -/
def Disputed (archives : List Archive) (name : String) : Prop :=
  ∃ s ∈ declarations archives, ∃ t ∈ declarations archives, s.name = name ∧ t.name = name ∧ s ≠ t

theorem mem_declarations {archives : List Archive} {t : StatisticsType} :
    t ∈ declarations archives ↔ ∃ a ∈ archives, t ∈ a.types := List.mem_flatMap

theorem foldlM_mergeType_of_known {types : Table String StatisticsType}
    {declared again : List StatisticsType} (known : Knows types declared)
    (among : ∀ t ∈ again, t ∈ declared) : again.foldlM mergeType types = .ok types := by
  induction again with
  | nil => rfl
  | cons t again induction =>
      obtain ⟨first, rest⟩ := List.forall_mem_cons.mp among
      have found := (known t.name t).mpr ⟨first, rfl⟩
      have idle : mergeType types t = .ok types := by simp only [mergeType, found, if_true]
      rw [List.foldlM_cons, idle, ok_bind, induction rest]

theorem mergedTypes_concat (archives : List Archive) (a : Archive) :
    mergedTypes (archives ++ [a]) = mergedTypes archives >>= a.types.foldlM mergeType := by
  rw [mergedTypes, mergedTypes, List.flatMap_append, List.flatMap_singleton, List.foldlM_append]

theorem mergedTypes_concat_of_mem {archives : List Archive} {a : Archive} (member : a ∈ archives) :
    mergedTypes (archives ++ [a]) = mergedTypes archives := by
  rw [mergedTypes_concat]
  rcases mergedTypes_cases archives with ⟨types, merged, known⟩ | ⟨_, _, _, _, _, _, mismatch⟩
  · rw [merged, ok_bind]
    exact foldlM_mergeType_of_known known fun t declared => mem_declarations.mpr ⟨a, member, declared⟩
  · rw [mismatch, error_bind]

/-- Copies that come after their originals do not change which type is refused. -/
theorem mergedTypes_eraseDups (archives : List Archive) :
    mergedTypes archives.eraseDups = mergedTypes archives := by
  induction archives using List.reverseRecOn with
  | nil => rfl
  | append_singleton archives a induction =>
      rw [List.eraseDups_append]
      by_cases member : a ∈ archives
      · have none : [a].removeAll archives = [] := by simp [List.removeAll, member]
        rw [none, List.eraseDups_nil, List.append_nil, induction, mergedTypes_concat_of_mem member]
      · have one : [a].removeAll archives = [a] := by simp [List.removeAll, member]
        rw [one, List.eraseDups_cons, List.filter_nil, List.eraseDups_nil, mergedTypes_concat,
          mergedTypes_concat, induction]

/-! Archives that are named several times. -/

theorem flatMap_of_single {α β : Type} [DecidableEq α] {f : α → List β} {a : α} {list : List α}
    (others : ∀ b ∈ list, b ≠ a → f b = []) :
    list.flatMap f = (List.replicate (list.count a) (f a)).flatten := by
  induction list with
  | nil => rfl
  | cons b list induction =>
      obtain ⟨first, rest⟩ := List.forall_mem_cons.mp others
      rw [List.flatMap_cons, induction rest]
      by_cases same : b = a
      · subst same
        rw [List.count_cons_self, List.replicate_succ, List.flatten_cons]
      · rw [first same, List.count_cons_of_ne same, List.nil_append]

theorem samplesIn_of_other {window : Option TimeWindow} {t : StatisticsType} {key : SeriesKey}
    {a : Archive} (other : ¬ (a.host = key.host ∧ a.processId = key.processId)) :
    samplesIn window t key a = [] := if_neg other

section

variable {archives copies : List Archive}
  (distinct : (archives.map fun a => (a.host, a.processId)).Nodup)
  (inserted : archives.Sublist copies) (copied : ∀ a ∈ copies, a ∈ archives)
  (window : Option TimeWindow)

include distinct inserted copied

/-- All samples of an instance come from one archive, and once more from each of its copies. -/
theorem exists_samplesOf_eq (t : StatisticsType) (key : SeriesKey) :
    ∃ count, samplesOf copies window t key =
      (List.replicate (count + 1) (samplesOf archives window t key)).flatten := by
  by_cases own : ∃ a ∈ archives, a.host = key.host ∧ a.processId = key.processId
  · obtain ⟨a, member, host, processId⟩ := own
    have others (b : Archive) (among : b ∈ archives) (differs : b ≠ a) :
        samplesIn window t key b = [] := by
      refine samplesIn_of_other fun ⟨alsoHost, alsoProcess⟩ => differs ?_
      refine List.inj_on_of_nodup_map distinct among member (Prod.ext ?_ ?_)
      · exact alsoHost.trans host.symm
      · exact alsoProcess.trans processId.symm
    have once : archives.count a = 1 := List.count_eq_one_of_mem (distinct.of_map _) member
    obtain ⟨count, several⟩ : ∃ count, copies.count a = count + 1 :=
      Nat.exists_eq_add_one.mpr (List.count_pos_iff.mpr (inserted.subset member))
    refine ⟨count, ?_⟩
    rw [samplesOf, samplesOf, flatMap_of_single others, once,
      flatMap_of_single fun b among => others b (copied b among), several,
      List.replicate_one, List.flatten_singleton]
  · have none (list : List Archive) (among : ∀ a ∈ list, a ∈ archives) :
        samplesOf list window t key = [] := by
      refine List.flatMap_eq_nil_iff.mpr fun a member => ?_
      exact samplesIn_of_other fun same => own ⟨a, among a member, same⟩
    refine ⟨0, ?_⟩
    rw [none copies copied, none archives fun _ => id]
    rfl

theorem foldType_of_copies : foldType copies window = foldType archives window := by
  funext t
  have several := exists_samplesOf_eq distinct inserted copied window t
  have instances : instancesOf copies window t = instancesOf archives window t := by
    apply eq_of_ascending id (pairwise_instancesOf _ _ _) (pairwise_instancesOf _ _ _)
    intro key
    obtain ⟨count, samples⟩ := several key
    rw [mem_instancesOf, mem_instancesOf, samples, ne_eq, List.flatten_eq_nil_iff,
      List.forall_mem_replicate]
    simp
  have echoes (key : SeriesKey) : Echoes (inOrder (samplesOf archives window t key))
      (inOrder (samplesOf copies window t key)) := by
    obtain ⟨count, samples⟩ := several key
    rw [samples]
    exact echoes_inOrder _ count
  simp only [foldType_eq, instances, foldMetric_of_echoes t _ echoes]

/-- Naming archives again changes nothing in a report but their number, and the report fails only where
it would have failed. Copies before their originals may have another name in dispute refused first. -/
theorem report_of_copies :
    (∃ metrics, ofArchives archives window = .ok ⟨archives.length, window, metrics⟩ ∧
      ofArchives copies window = .ok ⟨copies.length, window, metrics⟩) ∨
    ∃ name other, Disputed archives name ∧ Disputed archives other ∧
      ofArchives archives window = .error (.descriptorMismatch name) ∧
      ofArchives copies window = .error (.descriptorMismatch other) ∧
      (copies.eraseDups = archives → other = name) := by
  have declared (t : StatisticsType) : t ∈ declarations copies ↔ t ∈ declarations archives := by
    rw [mem_declarations, mem_declarations]
    exact ⟨fun ⟨a, member, types⟩ => ⟨a, copied a member, types⟩,
      fun ⟨a, member, types⟩ => ⟨a, inserted.subset member, types⟩⟩
  rcases mergedTypes_cases archives with
    ⟨types, merged, known⟩ | ⟨s, first, t, second, same, differ, mismatch⟩
  · rcases mergedTypes_cases copies with
      ⟨others, alsoMerged, alsoKnown⟩ | ⟨s, first, t, second, same, differ, -⟩
    · refine .inl ⟨_, ofArchives_of_mergedTypes window merged, ?_⟩
      rw [ofArchives_of_mergedTypes window alsoMerged, alsoKnown.eq known declared,
        foldType_of_copies distinct inserted copied window]
    · exact absurd (known.unique ((declared s).mp first) ((declared t).mp second) same) differ
  · rcases mergedTypes_cases copies with
      ⟨others, -, known⟩ | ⟨r, third, other, fourth, alsoSame, alsoDiffer, alsoMismatch⟩
    · exact absurd (known.unique ((declared s).mpr first) ((declared t).mpr second) same) differ
    · refine .inr ⟨t.name, other.name, ⟨s, first, t, second, same, rfl, differ⟩,
        ⟨r, (declared r).mp third, other, (declared other).mp fourth, alsoSame, rfl, alsoDiffer⟩,
        ofArchives_of_mismatch window mismatch, ofArchives_of_mismatch window alsoMismatch, ?_⟩
      intro later
      have agree := mergedTypes_eraseDups copies
      rw [later, mismatch, alsoMismatch] at agree
      exact (Fault.descriptorMismatch.inj (Except.error.inj agree)).symm

end

/-- One archive with two samples of the same time, named before and behind the others as well. -/
theorem report_of_copies_around :
    let t : StatisticsType := ⟨"Cache", [⟨"puts", "operations", true, .longCounter⟩]⟩
    let first : Archive := ⟨1, "node", [t],
      [⟨"Cache", "thread_1", 100, [.ofNat 10]⟩, ⟨"Cache", "thread_1", 100, [.ofNat 12]⟩,
        ⟨"Cache", "thread_1", 50, [.ofNat 3]⟩]⟩
    let other : Archive := ⟨2, "node", [t], [⟨"Cache", "thread_1", 100, [.ofNat 5]⟩]⟩
    let archives := [first, other]
    let copies := [other, first, first, other, first]
    (archives.map fun a => (a.host, a.processId)).Nodup ∧ archives.Sublist copies ∧
      (∀ a ∈ copies, a ∈ archives) ∧
      ∃ metrics, ofArchives archives none = .ok ⟨2, none, metrics⟩ ∧
        ofArchives copies none = .ok ⟨5, none, metrics⟩ := by
  intro t first other archives copies
  have distinct : (archives.map fun a => (a.host, a.processId)).Nodup := by decide +kernel
  have inserted : archives.Sublist copies := by decide +kernel
  have copied : ∀ a ∈ copies, a ∈ archives := by decide +kernel
  refine ⟨distinct, inserted, copied, ?_⟩
  rcases report_of_copies distinct inserted copied none with same | ⟨name, -, -, -, mismatch, -⟩
  · exact same
  · have done : (ofArchives archives none).isOk = true := by decide +kernel
    rw [mismatch] at done
    cases done

end AggregateReport

end Coordination
