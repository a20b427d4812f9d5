import Coordination.Proofs.Statistics.Aggregate
import Coordination.Proofs.Statistics.Closing

/-!
From live instances to the report. If every instance is closed in the end, the report accounts for all of
them by their names: of those that were made under one name it counts the last.
-/

namespace Coordination

theorem SeriesKey.instanceName_lt {a b : SeriesKey} (host : a.host = b.host)
    (process : a.processId = b.processId) (below : compare a b = .lt) :
    a.instanceName < b.instanceName := by
  have fields : compareLex (compareOn SeriesKey.host)
      (compareLex (compareOn SeriesKey.processId) (compareOn SeriesKey.instanceName)) a b = .lt := below
  simp only [compareLex, compareOn, host, process, Std.ReflCmp.compare_self, Ordering.then] at fields
  exact compareOfLessAndEq_eq_lt.mp fields

namespace Registry

open AggregateReport

/-- The instance is closed once, while it is live, and not updated after that. -/
def ClosedOnce (r : Registry) (events : List Event) (number : Nat) : Prop :=
  ∃ before now later, events = before ++ .close number now :: later ∧
    number ∈ (r.after before).live.values ∧
    (∀ event ∈ before ++ later, event.closed? ≠ some number) ∧
    ∀ event ∈ later, event.updated? ≠ some number

def lastMade? (r : Registry) (title : Title) : Option Instance :=
  (r.instances.filter (·.title = title)).getLast?

/-- The entry of a metric accounts for the instances of its type, for the last one of each name. They are
all of them if no name was used again. -/
structure Accounts (r : Registry) (t : StatisticsType) (m : Metric) (index : Nat)
    (names : List String) (e : MetricAggregate) : Prop where
  ascending : names.Pairwise (· < ·)
  made : ∀ name, name ∈ names ↔ ⟨t, name⟩ ∈ r.titles
  typeName : e.typeName = t.name
  metric : e.metric = m.name
  instances : e.instances = names.length
  every : (r.titles.filter (·.type = t)).Nodup →
    e.instances = (r.titles.filter (·.type = t)).length
  sum : e.sum = total (names.map fun name =>
    (r.lastMade? ⟨t, name⟩).elim .zero fun i => i.values[index]?.getD .zero)

/-- Distinct names are as many as the titles of the type if none of these is there twice. -/
theorem length_names {r : Registry} {t : StatisticsType} {names : List String}
    (ascending : names.Pairwise (· < ·)) (made : ∀ name, name ∈ names ↔ ⟨t, name⟩ ∈ r.titles)
    (distinct : (r.titles.filter (·.type = t)).Nodup) :
    names.length = (r.titles.filter (·.type = t)).length := by
  have nodupNames : names.Nodup := ascending.imp fun below => ne_of_lt below
  have nodup : (names.map (Title.mk t)).Nodup :=
    nodupNames.map fun _ _ same => congrArg Title.name same
  have same (title : Title) :
      title ∈ names.map (Title.mk t) ↔ title ∈ r.titles.filter (·.type = t) := by
    rw [List.mem_map, List.mem_filter, decide_eq_true_eq]
    constructor
    · rintro ⟨name, member, rfl⟩
      exact ⟨(made name).mp member, rfl⟩
    · rintro ⟨member, rfl⟩
      exact ⟨title.name, (made title.name).mpr member, rfl⟩
  rw [← ((List.perm_ext_iff_of_nodup nodup distinct).mpr same).length_eq, List.length_map]

theorem lastMade?_eq_some {r : Registry} {title : Title} (member : title ∈ r.titles) :
    ∃ number i, r.lastMade? title = some i ∧ r.instance? number = some i ∧ i.title = title ∧
      title ∉ r.titles.drop (number + 1) := by
  obtain ⟨i, there, rfl⟩ := List.mem_map.mp member
  have found : r.instances.filter (·.title = i.title) ≠ [] :=
    List.ne_nil_of_mem (List.mem_filter.mpr ⟨there, decide_eq_true rfl⟩)
  have last := List.getLast?_eq_some_getLast found
  generalize (r.instances.filter (·.title = i.title)).getLast found = j at last
  obtain ⟨others, filtered⟩ := List.getLast?_eq_some_iff.mp last
  obtain ⟨front, back, parts, -, inBack⟩ := List.filter_eq_append_iff.mp filtered
  obtain ⟨middle, rest, rfl, -, same, none⟩ := List.filter_eq_cons_iff.mp inBack
  rw [← List.append_assoc] at parts
  refine ⟨(front ++ middle).length, j, last, ?_, of_decide_eq_true same, ?_⟩
  · rw [instance?, parts, List.getElem?_append_right (Nat.le_refl _), Nat.sub_self]
    rfl
  · have dropped : r.instances.drop ((front ++ middle).length + 1) = rest := by
      rw [parts, List.append_cons]
      exact List.drop_left' List.length_append
    rw [titles, ← List.map_drop, dropped, List.mem_map]
    rintro ⟨later, inRest, alsoSame⟩
    exact List.filter_eq_nil_iff.mp none later inRest (decide_eq_true alsoSame)

theorem Sound.title_eq {r : Registry} (sound : Sound r) {title other : Title}
    (made : title ∈ r.titles) (known : other.type ∈ r.archive.types)
    (same : title.key = other.key) : title = other := by
  have types := sound.types.unique (sound.typed _ made) known (congrArg InstanceKey.typeName same)
  have names := congrArg InstanceKey.name same
  cases title; cases other; cases types; cases names; rfl

/-! Last samples. -/

section

variable {start : Registry} (sound : Sound start) {events : List Event} {number : Nat} {i : Instance}

include sound

/-- An instance keeps the values that it has when it is closed. -/
theorem ClosedOnce.instance? (closed : ClosedOnce start events number)
    (found : (start.after events).instance? number = some i) :
    ∃ before now later, events = before ++ .close number now :: later ∧
      (start.after before).instance? number = some i ∧
      (start.after before).live.get? i.key = some number := by
  obtain ⟨before, now, later, rfl, live, -, untouched⟩ := closed
  have soundBefore := (sound.after before).1
  obtain ⟨j, there, held⟩ := namesake?_eq_some_iff.mp ((soundBefore.mem_live_iff number).mp live)
  have kept : (start.after (before ++ .close number now :: later)).instance? number = some j := by
    rw [after_append]
    exact instance?_after there (List.forall_mem_cons.mpr ⟨nofun, untouched⟩)
  rw [found] at kept
  cases kept
  exact ⟨before, now, later, rfl, there, held⟩

/-- Where no instance is made under its name again, its last sample is the one of its close. -/
theorem ClosedOnce.last_sample (closed : ClosedOnce start events number)
    (found : (start.after events).instance? number = some i)
    (last : i.title ∉ (start.after events).titles.drop (number + 1)) :
    ∃ now, ((start.after events).archive.samples.filter (·.key = i.key)).getLast? =
      some (i.sample now) := by
  obtain ⟨before, now, later, rfl, there, held⟩ := closed.instance? sound found
  have soundBefore := (sound.after before).1
  rw [after_append, after_cons] at found last ⊢
  generalize start.after before = r at there held soundBefore found last
  have soundNext := (r.change (.close number now)).sound soundBefore
  have close : r.step (.close number now) =
      { r with
        live := r.live.erase i.key
        archive := r.archive.addSamples [i.sample now] } := by
    rw [step, close_of_live now there held]
  generalize r.step (.close number now) = next at soundNext close found last
  obtain ⟨soundAfter, -, ⟨made, titles⟩, -⟩ := soundNext.after later
  have long : number + 1 ≤ next.titles.length := by
    rw [close]
    exact (List.getElem?_eq_some_iff.mp (titled there)).1
  have fresh : i.title ∉ made := by
    intro member
    refine last (List.drop_subset_drop_left _ long ?_)
    rwa [← titles, List.drop_left]
  have nobody (title : Title) (member : title ∈ made) : title.key ≠ i.key := by
    intro same
    have known := soundAfter.typed _ (List.mem_of_getElem? (titled found))
    have inAfter : title ∈ (next.after later).titles := titles ▸ List.mem_append_right _ member
    exact fresh (soundAfter.title_eq inAfter known same ▸ member)
  have absent : next.live.get? i.key = none := by
    rw [close, Table.get?_erase, if_pos rfl]
  -- So nothing that is sampled later has the key, and the sample of the close stays the last.
  have own : [i.sample now].filter (·.key = i.key) = [i.sample now] :=
    List.filter_cons_of_pos (decide_eq_true rfl)
  refine ⟨now, ?_⟩
  rw [(absent_after soundNext titles.symm nobody absent).2, close, Archive.addSamples,
    List.filter_append, own, List.getLast?_concat]

end

/-- The last sample under each name is one of the last instance that was made under it. -/
def Settled (r : Registry) : Prop :=
  ∀ title ∈ r.titles, ∃ i now, r.lastMade? title = some i ∧
    (r.archive.samples.filter (·.key = title.key)).getLast? = some (i.sample now)

theorem settled_of_closedOnce {start : Registry} (sound : Sound start) {events : List Event}
    (closed : ∀ number < (start.after events).instances.length, ClosedOnce start events number) :
    Settled (start.after events) := by
  intro title member
  obtain ⟨number, i, lastMade, found, rfl, last⟩ := lastMade?_eq_some member
  have inside := (List.getElem?_eq_some_iff.mp found).1
  obtain ⟨now, sample⟩ := (closed number inside).last_sample sound found last
  exact ⟨i, now, lastMade, sample⟩

/-! The report. -/

section

variable {r : Registry} (sound : Sound r)

include sound

theorem Sound.mergedTypes_eq : AggregateReport.mergedTypes [r.archive] = .ok r.types := by
  have declared : declarations [r.archive] = r.archive.types := List.flatMap_singleton _ _
  rcases mergedTypes_cases [r.archive] with
    ⟨types, merged, knows⟩ | ⟨s, first, u, second, same, differ, -⟩
  · rw [merged, knows.eq sound.types fun u => by rw [declared]]
  · rw [declared] at first second
    exact absurd (sound.types.unique first second same) differ

variable {t : StatisticsType} (known : t ∈ r.archive.types)

include known

/-- All samples of a name count, as all of them are of the type that has the name. -/
theorem Sound.samplesOf_eq (key : SeriesKey) :
    samplesOf [r.archive] none t key =
      if r.archive.host = key.host ∧ r.archive.processId = key.processId then
        r.archive.samples.filter (·.key = (Title.mk t key.instanceName).key)
      else [] := by
  rw [AggregateReport.samplesOf, List.flatMap_singleton, samplesIn]
  refine if_congr Iff.rfl (List.filter_congr fun s member => ?_) rfl
  rw [decide_eq_decide, Sample.key, Title.key, InstanceKey.mk.injEq]
  constructor
  · rintro ⟨typeName, name, -⟩
    exact ⟨typeName, name⟩
  · rintro ⟨typeName, name⟩
    obtain ⟨title, made, fits⟩ := sound.samples s member
    have same : title.key = (Title.mk t key.instanceName).key := by
      rw [← fits.key, Sample.key, typeName, name, Title.key]
    cases sound.title_eq made known same
    exact ⟨typeName, name, s.within_none, fits.width⟩

variable (settled : Settled r)

include settled

theorem Settled.mem_instancesOf (key : SeriesKey) :
    key ∈ instancesOf [r.archive] none t ↔
      (r.archive.host = key.host ∧ r.archive.processId = key.processId) ∧
        ⟨t, key.instanceName⟩ ∈ r.titles := by
  rw [AggregateReport.mem_instancesOf, sound.samplesOf_eq known]
  split
  · rename_i here
    rw [and_iff_right here]
    constructor
    · intro nonempty
      obtain ⟨s, found⟩ := List.exists_mem_of_ne_nil _ nonempty
      obtain ⟨member, same⟩ := List.mem_filter.mp found
      obtain ⟨title, made, fits⟩ := sound.samples s member
      cases sound.title_eq made known (fits.key.symm.trans (of_decide_eq_true same))
      exact made
    · intro made none
      obtain ⟨i, now, -, last⟩ := settled _ made
      rw [none] at last
      cases last
  · rename_i elsewhere
    exact ⟨fun nonempty => absurd rfl nonempty, fun both => absurd both.1 elsewhere⟩

theorem Settled.ascending :
    ((instancesOf [r.archive] none t).map (·.instanceName)).Pairwise (· < ·) := by
  refine List.pairwise_map.mpr ((pairwise_instancesOf _ _ _).imp_of_mem ?_)
  intro a b first second below
  obtain ⟨⟨host, process⟩, -⟩ := (settled.mem_instancesOf sound known a).mp first
  obtain ⟨⟨sameHost, sameProcess⟩, -⟩ := (settled.mem_instancesOf sound known b).mp second
  exact SeriesKey.instanceName_lt (host.symm.trans sameHost) (process.symm.trans sameProcess) below

theorem Settled.made (name : String) :
    name ∈ (instancesOf [r.archive] none t).map (·.instanceName) ↔ ⟨t, name⟩ ∈ r.titles := by
  rw [List.mem_map]
  constructor
  · rintro ⟨key, member, rfl⟩
    exact ((settled.mem_instancesOf sound known key).mp member).2
  · intro made
    exact ⟨⟨r.archive.host, r.archive.processId, name⟩,
      (settled.mem_instancesOf sound known _).mpr ⟨⟨rfl, rfl⟩, made⟩, rfl⟩

theorem Settled.accounts
    (sorted : r.archive.samples.Pairwise fun s next => s.timestampMs ≤ next.timestampMs)
    (m : Metric) (index : Nat) :
    Accounts r t m index ((instancesOf [r.archive] none t).map (·.instanceName))
      (foldMetric t
        ((instancesOf [r.archive] none t).map fun key =>
          inOrder (AggregateReport.samplesOf [r.archive] none t key)) m index) where
  ascending := settled.ascending sound known
  made := settled.made sound known
  typeName := rfl
  metric := rfl
  instances := by simp only [foldMetric, List.length_map]
  every distinct := by
    rw [← length_names (settled.ascending sound known) (settled.made sound known) distinct]
    simp only [foldMetric, List.length_map]
  sum := by
    simp only [foldMetric, List.map_map]
    refine congrArg total (List.map_congr_left fun key member => ?_)
    obtain ⟨here, made⟩ := (settled.mem_instancesOf sound known key).mp member
    obtain ⟨i, now, lastMade, last⟩ := settled _ made
    rw [Function.comp_apply, Function.comp_apply, sound.samplesOf_eq known, if_pos here,
      inOrder_of_pairwise (sorted.filter _), lastValue, last, lastMade]
    rfl

end

/-- If every instance is closed in the end, its values stay as they are at that moment. The report has an
entry for every metric of every type, and it counts each name under which instances of the type were
made, with the value of the last of them. -/
theorem report_of_closed (processId : UInt32) (host : String) (events : List Event) :
    let start := empty processId host
    let r := start.after events
    (∀ number < r.instances.length, ClosedOnce start events number) →
    r.archive.samples.Pairwise (fun s next => s.timestampMs ≤ next.timestampMs) →
    (∀ number i, r.instance? number = some i → ∃ before now later,
      events = before ++ .close number now :: later ∧
        (start.after before).instance? number = some i) ∧
    ∃ metrics, ofArchives [r.archive] none = .ok ⟨1, none, metrics⟩ ∧
      List.Forall₂ (fun (t, m, index) e => ∃ names, Accounts r t m index names e)
        (columns r.types.values) metrics := by
  intro start r closed sorted
  have soundStart : Sound start := sound_empty processId host
  have sound : Sound r := (soundStart.after events).1
  have settled : Settled r := settled_of_closedOnce soundStart closed
  constructor
  · intro number i found
    have inside := (List.getElem?_eq_some_iff.mp found).1
    obtain ⟨before, now, later, parts, there, -⟩ := (closed number inside).instance? soundStart found
    exact ⟨before, now, later, parts, there⟩
  · refine ⟨_, ofArchives_of_mergedTypes none sound.mergedTypes_eq, ?_⟩
    rw [flatMap_foldType, List.forall₂_map_right_iff, List.forall₂_same]
    rintro ⟨t, m, index⟩ member
    have known := (sound.types.mem_values_iff t).mp (mem_columns.mp member).1
    exact ⟨_, settled.accounts sound known sorted m index⟩

/-- A worker's instance is closed and made again, and another worker's is sampled in between. -/
theorem report_of_two_workers :
    let t : StatisticsType := ⟨"Cache", [⟨"puts", "operations", true, .longCounter⟩]⟩
    let events : List Event :=
      [.register t, .obtain "Cache" (.thread 1) none none, .obtain "Cache" (.thread 2) none none,
        .update 0 (.incrementBy "puts" 5), .update 1 (.increment "puts"), .sampleAll fun _ => 100,
        .close 0 110, .obtain "Cache" (.thread 1) none none, .update 2 (.incrementBy "puts" 7),
        .close 2 120, .update 1 (.increment "puts"), .close 1 130]
    let r := (empty 1 "node").after events
    (∀ number < r.instances.length, ClosedOnce (empty 1 "node") events number) ∧
      r.archive.samples.Pairwise (fun s next => s.timestampMs ≤ next.timestampMs) ∧
      ∃ metrics, ofArchives [r.archive] none = .ok ⟨1, none, metrics⟩ ∧
        List.Forall₂ (fun (t, m, index) e => ∃ names, Accounts r t m index names e)
          (columns r.types.values) metrics := by
  intro t events
  have count : ((empty 1 "node").after events).instances.length = 3 := by decide +kernel
  have closed : ∀ number < ((empty 1 "node").after events).instances.length,
      ClosedOnce (empty 1 "node") events number := by
    rw [count]
    intro number below
    match number with
    | 0 => exact ⟨events.take 6, 110, events.drop 7, rfl, by decide +kernel, by decide, by decide⟩
    | 1 => exact ⟨events.take 11, 130, events.drop 12, rfl, by decide +kernel, by decide, by decide⟩
    | 2 => exact ⟨events.take 9, 120, events.drop 10, rfl, by decide +kernel, by decide, by decide⟩
  have sorted : ((empty 1 "node").after events).archive.samples.Pairwise
      fun s next => s.timestampMs ≤ next.timestampMs := by
    decide +kernel
  exact ⟨closed, sorted, (report_of_closed 1 "node" events closed sorted).2⟩

/-- Of two instances under one name the report counts one, with the value of the second. -/
theorem name_used_again_counts_once :
    let t : StatisticsType := ⟨"Cache", [⟨"puts", "operations", true, .longCounter⟩]⟩
    let events : List Event :=
      [.register t, .obtain "Cache" (.thread 1) none none, .update 0 (.incrementBy "puts" 5),
        .close 0 100, .obtain "Cache" (.thread 1) none none, .update 1 (.incrementBy "puts" 7),
        .close 1 200]
    let r := (empty 1 "node").after events
    (∀ number < r.instances.length, ClosedOnce (empty 1 "node") events number) ∧
      r.archive.samples.Pairwise (fun s next => s.timestampMs ≤ next.timestampMs) ∧
      ∃ e, ofArchives [r.archive] none = .ok ⟨1, none, [e]⟩ ∧
        e.instances ≠ r.titles.length ∧ e.sum ≠ (Binary64.ofNat 5).add (.ofNat 7) ∧
        e.instances = 1 ∧ e.sum = .ofNat 7 := by
  intro t events r
  have count : r.instances.length = 2 := by decide +kernel
  refine ⟨?_, by decide +kernel, ?_⟩
  · rw [count]
    intro number below
    match number with
    | 0 => exact ⟨events.take 3, 100, events.drop 4, rfl, by decide +kernel, by decide, by decide⟩
    | 1 => exact ⟨events.take 6, 200, events.drop 7, rfl, by decide +kernel, by decide, by decide⟩
  · let samples : List Sample :=
      [⟨"Cache", "thread_1", 100, [.ofNat 5]⟩, ⟨"Cache", "thread_1", 200, [.ofNat 7]⟩]
    have merged : AggregateReport.mergedTypes [r.archive] = .ok r.types := by decide +kernel
    have types : r.types.values = [t] := by decide +kernel
    have series : (seriesOf (countedSamples t none [r.archive])).values = [samples] := by
      decide +kernel
    have sorted : inOrder samples = samples := inOrder_of_pairwise (by decide)
    refine ⟨foldMetric t [samples] ⟨"puts", "operations", true, .longCounter⟩ 0, ?_, ?_⟩
    · rw [ofArchives_of_mergedTypes none merged, types, List.flatMap_singleton, foldType, series,
        List.map_singleton, sorted]
      rfl
    · decide +kernel

end Registry

end Coordination
