import Coordination.Proofs.Binary64.Whole
import Coordination.Proofs.Statistics.Instance
import Coordination.Statistics.Ledger

/-!
Updates add up. An update changes the metric that it is for and no other, or nothing at all; so a counter
comes to the sum of what was added to it, and a gauge to what it was last set to.
-/

namespace Coordination

namespace Instance

namespace Update

theorem accepts_increment (metric : String) :
    (increment metric).accepts = MetricKind.isCounter := by
  funext kind
  cases kind <;> rfl

theorem accepts_incrementBy (metric : String) (n : Int64) :
    (incrementBy metric n).accepts = MetricKind.isCounter := by
  funext kind
  cases kind <;> rfl

theorem accepts_incrementInt (metric : String) (n : Int32) :
    (incrementInt metric n).accepts = fun kind => decide (kind = .intCounter) := by
  funext kind
  cases kind <;> rfl

theorem accepts_incrementLong (metric : String) (n : Int64) :
    (incrementLong metric n).accepts = fun kind => decide (kind = .longCounter) := by
  funext kind
  cases kind <;> rfl

theorem accepts_setGauge (metric : String) (value : Binary64) :
    (setGauge metric value).accepts = fun kind => decide (kind = .gauge) := by
  funext kind
  cases kind <;> rfl

end Update

variable {i : Instance} {u : Update}

/-! One update. -/

/-- All updates are one and the same but for what they accept and what they do. -/
theorem perform_eq (i : Instance) (u : Update) :
    i.perform u = (i.expect u.metric u.accepts u.wanted).map fun p =>
      i.changeSlot p fun c => ⟨u.effect c.value⟩ := by
  cases u with
  | increment metric => rw [Update.accepts_increment]; exact final_changeMetric ..
  | incrementBy metric n => rw [Update.accepts_incrementBy]; exact final_changeMetric ..
  | incrementInt metric n => rw [Update.accepts_incrementInt]; exact final_changeMetric ..
  | incrementLong metric n => rw [Update.accepts_incrementLong]; exact final_changeMetric ..
  | setGauge metric value => rw [Update.accepts_setGauge]; exact final_changeMetric ..

/-- An update that is refused spares the instance. -/
theorem attempt_eq (i : Instance) (u : Update) :
    i.attempt u = (i.perform u).toOption.getD i := (i.spares_inPlace u).left_eq

theorem perform_of_undeclared (undeclared : ∀ m ∈ i.type.metrics, m.name ≠ u.metric) :
    i.perform u = .error (.unknownMetric i.type.name u.metric) := by
  rw [perform_eq, expect_of_undeclared undeclared]
  rfl

theorem attempt_of_error {fault : Fault} (refused : i.perform u = .error fault) :
    i.attempt u = i := by
  rw [attempt_eq, refused]
  rfl

theorem attempt_of_ok {j : Instance} (done : i.perform u = .ok j) : i.attempt u = j := by
  rw [attempt_eq, done]
  rfl

theorem type_attempt (i : Instance) (u : Update) : (i.attempt u).type = i.type := by
  rw [attempt_eq, perform_eq]
  cases i.expect u.metric u.accepts u.wanted with
  | error fault => rfl
  | ok p => rfl

theorem stored?_changeSlot (p : i.Position) (change : Counter → Counter) (index : Nat) :
    (i.changeSlot p change).stored? index =
      (i.stored? index).map fun slot => if p.val = index then (change ⟨slot⟩).value else slot := by
  rw [stored?, stored?, changeSlot, Vector.getElem?_set]
  by_cases here : p.val = index
  · subst here
    simp
  · simp [here, Function.comp_def]

section Named

variable (distinct : (i.type.metrics.map (·.name)).Nodup) (p : i.Position)
  (named : (i.type.metrics.get p).name = u.metric)

include distinct named

theorem perform_of_mismatch (refused : u.accepts (i.kindAt p) = false) :
    i.perform u =
      .error (.metricKindMismatch i.type.name u.metric u.wanted (i.kindAt p).label) := by
  rw [perform_eq, ← named, expect_name distinct, if_neg (by simp [refused])]
  rfl

theorem perform_of_accepted (accepted : u.accepts (i.kindAt p) = true) :
    i.perform u = .ok (i.changeSlot p fun c => ⟨u.effect c.value⟩) := by
  rw [perform_eq, ← named, expect_accepted distinct p accepted]
  rfl

end Named

/-- What an update makes of each slot. -/
theorem stored?_attempt (distinct : (i.type.metrics.map (·.name)).Nodup) (q : i.Position) :
    (i.attempt u).stored? q.val =
      (i.stored? q.val).map fun slot =>
        if (i.type.metrics.get q).takes u then u.effect slot else slot := by
  have idle (same : i.attempt u = i) (spared : (i.type.metrics.get q).takes u = false) :
      (i.attempt u).stored? q.val =
        (i.stored? q.val).map fun slot =>
          if (i.type.metrics.get q).takes u then u.effect slot else slot := by
    simp only [same, spared, Bool.false_eq_true, if_false, Option.map_id']
  by_cases declared : ∃ m ∈ i.type.metrics, m.name = u.metric
  · obtain ⟨m, member, named⟩ := declared
    obtain ⟨p, rfl⟩ := exists_position member
    cases accepted : u.accepts (i.kindAt p) with
    | true =>
        rw [attempt_of_ok (perform_of_accepted distinct p named accepted), stored?_changeSlot]
        refine congrArg (Option.map · _) (funext fun slot => if_congr ?_ rfl rfl)
        rw [Metric.takes, Bool.and_eq_true, decide_eq_true_eq]
        constructor
        · intro here
          cases Fin.ext here
          exact ⟨named.symm, accepted⟩
        · rintro ⟨same, -⟩
          exact congrArg Fin.val (position_eq distinct q (named.trans same))
    | false =>
        refine idle (attempt_of_error (perform_of_mismatch distinct p named accepted)) ?_
        rw [Metric.takes, Bool.and_eq_false_imp, decide_eq_true_eq]
        intro same
        cases position_eq distinct q (named.trans same)
        exact accepted
  · refine idle (attempt_of_error (perform_of_undeclared fun m member named =>
      declared ⟨m, member, named⟩)) ?_
    rw [Metric.takes, Bool.and_eq_false_imp, decide_eq_true_eq]
    exact fun same => absurd ⟨_, List.get_mem _ q, same.symm⟩ declared

/-! Updates one after another. -/

theorem type_after (i : Instance) (updates : List Update) : (i.after updates).type = i.type := by
  induction updates generalizing i with
  | nil => rfl
  | cons u updates induction => exact (induction (i.attempt u)).trans (i.type_attempt u)

theorem stored?_after (distinct : (i.type.metrics.map (·.name)).Nodup) {index : Nat} {m : Metric}
    (there : i.type.metrics[index]? = some m) (updates : List Update) :
    (i.after updates).stored? index =
      (i.stored? index).map fun slot =>
        (updates.filter m.takes).foldl (fun slot u => u.effect slot) slot := by
  induction updates generalizing i with
  | nil => exact Option.map_id'.symm
  | cons u updates induction =>
      have onward := @induction (i.attempt u) (by rwa [type_attempt]) (by rwa [type_attempt])
      obtain ⟨inside, rfl⟩ := List.getElem?_eq_some_iff.mp there
      have first := stored?_attempt (u := u) distinct ⟨index, inside⟩
      rw [after, List.foldl_cons]
      refine onward.trans ?_
      rw [first, Option.map_map]
      refine congrArg (Option.map · _) (funext fun slot => ?_)
      rw [Function.comp_apply, List.get_eq_getElem, List.filter_cons]
      split <;> rfl

end Instance

namespace Metric

open Instance (Update)

variable {m : Metric} {u : Update}

theorem effect_of_counter (counter : m.kind.isCounter = true) (taken : m.takes u = true)
    (slot : Int64) : u.effect slot = slot + .ofInt u.amount := by
  rw [takes, Bool.and_eq_true] at taken
  cases u with
  | increment metric => rfl
  | incrementBy metric n | incrementLong metric n =>
      rw [Update.amount, Int64.ofInt_toInt]
      rfl
  | incrementInt metric n =>
      rw [Update.amount, Int64.ofInt_int32ToInt]
      rfl
  | setGauge metric value =>
      have gauge := taken.2
      cases kind : m.kind <;> simp [kind, Update.accepts, MetricKind.isCounter] at counter gauge

/-- Wrapping around at every step comes to the same as wrapping around the sum. -/
theorem foldl_effect_of_counter (counter : m.kind.isCounter = true) (updates : List Update)
    (slot : Int64) :
    (updates.filter m.takes).foldl (fun slot u => u.effect slot) slot =
      slot + .ofInt (m.deltas updates).sum := by
  have taken : ∀ u ∈ updates.filter m.takes, m.takes u = true := fun u => List.of_mem_filter
  rw [deltas]
  generalize updates.filter m.takes = updates at taken
  induction updates generalizing slot with
  | nil => simp
  | cons u updates induction =>
      obtain ⟨first, others⟩ := List.forall_mem_cons.mp taken
      rw [List.foldl_cons, induction _ others, effect_of_counter counter first, List.map_cons,
        List.sum_cons, Int64.ofInt_add, Int64.add_assoc]

theorem effect_of_gauge (gauge : m.kind = .gauge) (taken : m.takes u = true) :
    ∃ value, u.setting? m.name = some value ∧ ∀ slot, u.effect slot = value.bits.toInt64 := by
  rw [takes, Bool.and_eq_true, decide_eq_true_eq, gauge] at taken
  cases u with
  | increment metric | incrementBy metric n | incrementInt metric n | incrementLong metric n =>
      cases taken.2
  | setGauge metric value => exact ⟨value, if_pos taken.1, fun _ => rfl⟩

theorem setting?_of_not_takes (gauge : m.kind = .gauge) (spared : m.takes u = false) :
    u.setting? m.name = none := by
  rw [takes, gauge] at spared
  cases u with
  | increment metric | incrementBy metric n | incrementInt metric n | incrementLong metric n => rfl
  | setGauge metric value =>
      exact if_neg (of_decide_eq_false ((Bool.and_true _).symm.trans spared))

theorem foldl_effect_of_gauge (gauge : m.kind = .gauge) (updates : List Update) :
    (updates.filter m.takes).foldl (fun slot u => u.effect slot) 0 =
      (m.lastSet updates).bits.toInt64 := by
  rw [lastSet]
  induction updates using List.reverseRecOn with
  | nil => rfl
  | append_singleton updates u induction =>
      rw [List.filter_append, List.foldl_append, List.filterMap_append]
      cases taken : m.takes u with
      | true =>
          obtain ⟨value, set, effect⟩ := effect_of_gauge gauge taken
          rw [List.filter_cons_of_pos taken, List.filter_nil, List.foldl_cons, List.foldl_nil, effect,
            List.filterMap_cons_some set, List.filterMap_nil, List.getLastD_concat]
      | false =>
          rw [List.filter_cons_of_neg (by simp [taken]), List.filter_nil, List.foldl_nil, induction,
            List.filterMap_cons_none (setting?_of_not_takes gauge taken), List.filterMap_nil,
            List.append_nil]

end Metric

namespace Instance

variable {i : Instance}

/-- What an instance answers to an update, and what it makes of its slots by it. -/
structure Heeds (i : Instance) (u : Update) : Prop where
  undeclared : (∀ m ∈ i.type.metrics, m.name ≠ u.metric) →
    i.perform u = .error (.unknownMetric i.type.name u.metric) ∧ i.attempt u = i
  mismatched : ∀ m ∈ i.type.metrics, m.name = u.metric → u.accepts m.kind = false →
    i.perform u = .error (.metricKindMismatch i.type.name u.metric u.wanted m.kind.label) ∧
      i.attempt u = i
  accepted : ∀ m ∈ i.type.metrics, m.name = u.metric → u.accepts m.kind = true →
    i.perform u = .ok (i.attempt u) ∧ (∃ slots, i.attempt u = { i with slots := slots }) ∧
      ∀ index other, i.type.metrics[index]? = some other →
        (i.attempt u).stored? index =
          (i.stored? index).map fun slot => if other.name = u.metric then u.effect slot else slot

/-- What is read of a metric after some updates. -/
structure Shows (i : Instance) (updates : List Update) (m : Metric) : Prop where
  int : m.kind = .intCounter → ∃ n x,
    i.readInt m.name = .ok n ∧ n.toInt = (m.deltas updates).sum.bmod (2 ^ 32) ∧
      i.read m.name = .ok x ∧ x.Denotes n.toInt
  long : m.kind = .longCounter → ∃ n,
    i.readLong m.name = .ok n ∧ n.toInt = (m.deltas updates).sum.bmod (2 ^ 64)
  gauge : m.kind = .gauge → i.read m.name = .ok (m.lastSet updates)

theorem heeds (distinct : (i.type.metrics.map (·.name)).Nodup) (u : Update) : i.Heeds u where
  undeclared none := by
    have refused := perform_of_undeclared none
    exact ⟨refused, attempt_of_error refused⟩
  mismatched m member named mismatch := by
    obtain ⟨p, rfl⟩ := exists_position member
    have refused := perform_of_mismatch distinct p named mismatch
    exact ⟨refused, attempt_of_error refused⟩
  accepted m member named accepted := by
    obtain ⟨p, rfl⟩ := exists_position member
    have done := perform_of_accepted distinct p named accepted
    have changed := attempt_of_ok done
    refine ⟨done.trans (congrArg _ changed.symm), ⟨_, changed⟩, ?_⟩
    intro index other there
    obtain ⟨inside, rfl⟩ := List.getElem?_eq_some_iff.mp there
    have declared : (i.type.metrics.get ⟨index, inside⟩).name = u.metric →
        u.accepts (i.kindAt ⟨index, inside⟩) = true := by
      intro same
      rw [position_eq distinct p (same.trans named.symm)]
      exact accepted
    rw [stored?_attempt distinct ⟨index, inside⟩]
    refine congrArg (Option.map · _) (funext fun slot => if_congr ?_ rfl rfl)
    rw [Metric.takes, Bool.and_eq_true, decide_eq_true_eq]
    exact ⟨fun both => both.1.symm, fun same => ⟨same.symm, declared same⟩⟩

/-! What is read after some updates. -/

theorem denotes_int32 (n : Int32) : (Binary64.ofInt n.toInt).Denotes n.toInt := by
  have lower := n.le_toInt
  have upper := n.toInt_lt
  exact Binary64.denotes_ofInt (by omega)

/-- Every slot is what the updates for its metric make of zero. -/
def Reflects (i : Instance) (updates : List Update) : Prop :=
  ∀ p : i.Position, (i.slots.get p).value =
    (updates.filter (i.type.metrics.get p).takes).foldl (fun slot u => u.effect slot) 0

theorem stored?_fresh {t : StatisticsType} {name : String} {scope : Scope} {index : Nat}
    (inside : index < t.metrics.length) : (fresh t name scope).stored? index = some 0 := by
  change (Vector.replicate t.metrics.length Counter.zero)[index]?.map (·.value) = some 0
  rw [Vector.getElem?_replicate, if_pos inside]
  rfl

theorem reflects_after {t : StatisticsType} (distinct : (t.metrics.map (·.name)).Nodup)
    (name : String) (scope : Scope) (updates : List Update) :
    ((fresh t name scope).after updates).Reflects updates := by
  intro p
  have types := (fresh t name scope).type_after updates
  have there : t.metrics[p.val]? = some (((fresh t name scope).after updates).type.metrics.get p) :=
    (congrArg (fun t : StatisticsType => t.metrics[p.val]?) types).symm.trans
      (List.getElem?_eq_getElem p.isLt)
  have inside := (List.getElem?_eq_some_iff.mp there).1
  have final := stored?_after (i := fresh t name scope) distinct there updates
  rw [stored?_fresh inside, Option.map_some, stored?, Vector.getElem?_eq_getElem p.isLt,
    Option.map_some] at final
  exact Option.some.inj final

section

variable {updates : List Update} (reflects : i.Reflects updates)

include reflects

theorem Reflects.slot_of_counter {p : i.Position} (counter : (i.kindAt p).isCounter = true) :
    (i.slots.get p).value = .ofInt ((i.type.metrics.get p).deltas updates).sum := by
  rw [reflects p, Metric.foldl_effect_of_counter counter, Int64.zero_add]

/-- The low bits of the sum are the sum in fewer bits. -/
theorem Reflects.toInt32_of_counter {p : i.Position} (counter : (i.kindAt p).isCounter = true) :
    (i.slots.get p).value.toInt32.toInt =
      ((i.type.metrics.get p).deltas updates).sum.bmod (2 ^ 32) := by
  rw [Int64.toInt_toInt32, reflects.slot_of_counter counter, Int64.toInt_ofInt]
  exact Int.bmod_bmod_of_dvd (by decide)

theorem Reflects.slot_of_gauge {p : i.Position} (gauge : i.kindAt p = .gauge) :
    (i.slots.get p).value = ((i.type.metrics.get p).lastSet updates).bits.toInt64 := by
  rw [reflects p, Metric.foldl_effect_of_gauge gauge]

end

theorem valueAt_of_int {p : i.Position} (kind : i.kindAt p = .intCounter) :
    (i.valueAt p).Denotes (i.slots.get p).value.toInt32.toInt := by
  rw [valueAt_of_stored (by rw [kind]; rfl), kind]
  exact denotes_int32 _

theorem valueAt_of_gauge {p : i.Position} (kind : i.kindAt p = .gauge) :
    i.valueAt p = ⟨(i.slots.get p).value.toUInt64⟩ := by
  rw [valueAt_of_stored (by rw [kind]; rfl), kind]
  rfl

theorem Reflects.shows {updates : List Update} (reflects : i.Reflects updates)
    (distinct : (i.type.metrics.map (·.name)).Nodup) {m : Metric} (member : m ∈ i.type.metrics) :
    i.Shows updates m := by
  obtain ⟨p, rfl⟩ := exists_position member
  constructor
  · intro kind
    have counter : (i.kindAt p).isCounter = true := by rw [kindAt, kind]; rfl
    exact ⟨_, _, readInt_name distinct p kind, reflects.toInt32_of_counter counter,
      read_name distinct p, valueAt_of_int kind⟩
  · intro kind
    have counter : (i.kindAt p).isCounter = true := by rw [kindAt, kind]; rfl
    refine ⟨_, readLong_name distinct p counter, ?_⟩
    rw [reflects.slot_of_counter counter]
    exact Int64.toInt_ofInt
  · intro kind
    rw [read_name distinct, valueAt_of_gauge kind, reflects.slot_of_gauge kind,
      UInt64.toUInt64_toInt64]

theorem after_built {typeName : String} {metrics : List Metric} {t : StatisticsType}
    (built : StatisticsType.ofMetrics typeName metrics = .ok t) (name : String) (scope : Scope)
    (updates : List Update) :
    let i := (fresh t name scope).after updates
    i.type = ⟨typeName, metrics⟩ ∧ (i.type.metrics.map (·.name)).Nodup ∧ i.Reflects updates := by
  intro i
  obtain ⟨proper, rfl⟩ := StatisticsType.ofMetrics_eq_ok_iff.mp built
  have types : i.type = ⟨typeName, metrics⟩ := type_after _ updates
  refine ⟨types, ?_, reflects_after proper.distinct name scope updates⟩
  rw [types]
  exact proper.distinct

/-- From its making on, an instance answers each update by the kind of the metric that it is for. What is
refused changes nothing, and what is accepted is in what is read afterwards. -/
theorem updates_add_up {typeName : String} {metrics : List Metric} {t : StatisticsType}
    (built : StatisticsType.ofMetrics typeName metrics = .ok t) (name : String) (scope : Scope)
    (updates : List Update) :
    let i := (fresh t name scope).after updates
    i.type = ⟨typeName, metrics⟩ ∧ (∀ u, i.Heeds u) ∧ ∀ m ∈ metrics, i.Shows updates m := by
  intro i
  obtain ⟨types, distinct, reflects⟩ := after_built built name scope updates
  exact ⟨types, heeds distinct, fun m member => reflects.shows distinct (by rwa [types])⟩

/-- Sums that leave both ranges, and updates that are refused between them. -/
theorem updates_add_up_out_of_range :
    let metrics : List Metric :=
      [⟨"load per get", "", true, .derived "load" "gets"⟩, ⟨"gets", "operations", true, .intCounter⟩,
        ⟨"time", "nanoseconds", false, .longCounter⟩, ⟨"load", "", false, .gauge⟩]
    let updates : List Update :=
      [.incrementInt "gets" Int32.maxValue, .increment "gets", .incrementLong "gets" 5,
        .incrementBy "gets" Int64.minValue, .incrementLong "time" Int64.maxValue, .increment "time",
        .incrementInt "time" 5, .setGauge "load" ⟨0xfff8000000000001⟩, .increment "load",
        .setGauge "load per get" .zero, .increment "puts"]
    StatisticsType.ofMetrics "Cache" metrics = .ok ⟨"Cache", metrics⟩ ∧
      let i := (fresh ⟨"Cache", metrics⟩ "thread_1" (.thread 1)).after updates
      i.readInt "gets" = .ok Int32.minValue ∧ i.readLong "time" = .ok Int64.minValue ∧
        i.read "load" = .ok ⟨0xfff8000000000001⟩ ∧
        i.type = ⟨"Cache", metrics⟩ ∧ (∀ u, i.Heeds u) ∧ ∀ m ∈ metrics, i.Shows updates m := by
  intro metrics updates
  have built : StatisticsType.ofMetrics "Cache" metrics = .ok ⟨"Cache", metrics⟩ :=
    StatisticsType.ofMetrics_eq_ok_iff.mpr ⟨by decide +kernel, rfl⟩
  exact ⟨built, by decide +kernel, by decide +kernel, by decide +kernel,
    updates_add_up built "thread_1" (.thread 1) updates⟩

/-! An int counter, read in several ways. -/

theorem bmod_int32_iff {n : Int} : n.bmod (2 ^ 32) = n ↔ -2 ^ 31 ≤ n ∧ n < 2 ^ 31 := by
  rw [Int.bmod_eq_iff (by decide), Int.sub_self]
  constructor
  · rintro ⟨lower, upper, -⟩
    exact ⟨lower, upper⟩
  · rintro ⟨lower, upper⟩
    exact ⟨lower, upper, Int.dvd_zero _⟩

/-- Read as an int, as a real or in a sample, an int counter is the sum in 32 bits. Read as a long it is
the sum in 64 bits, so that this is another number once the sum has left the range of 32 bits. -/
theorem int_counter_reads {typeName : String} {metrics : List Metric} {t : StatisticsType}
    (built : StatisticsType.ofMetrics typeName metrics = .ok t) (name : String) (scope : Scope)
    (updates : List Update) {m : Metric} (member : m ∈ metrics) (kind : m.kind = .intCounter) :
    let i := (fresh t name scope).after updates
    let sum := (m.deltas updates).sum
    ∃ (int : Int32) (long : Int64) (x : Binary64),
      i.readInt m.name = .ok int ∧ int.toInt = sum.bmod (2 ^ 32) ∧
      i.read m.name = .ok x ∧ x.Denotes int.toInt ∧
      (∀ now (index : Nat), metrics[index]? = some m → (i.sample now).values[index]? = some x) ∧
      i.readLong m.name = .ok long ∧ long.toInt = sum.bmod (2 ^ 64) ∧
      (long = int.toInt64 ↔ -2 ^ 31 ≤ sum.bmod (2 ^ 64) ∧ sum.bmod (2 ^ 64) < 2 ^ 31) := by
  intro i sum
  obtain ⟨types, distinct, reflects⟩ := after_built built name scope updates
  have members : i.type.metrics = metrics := congrArg StatisticsType.metrics types
  rw [← members] at member
  obtain ⟨p, rfl⟩ := exists_position member
  have counter : (i.kindAt p).isCounter = true := by rw [kindAt, kind]; rfl
  have long : (i.slots.get p).value.toInt = sum.bmod (2 ^ 64) := by
    rw [reflects.slot_of_counter counter]
    exact Int64.toInt_ofInt
  refine ⟨_, _, _, readInt_name distinct p kind, reflects.toInt32_of_counter counter,
    read_name distinct p, valueAt_of_int kind, ?_, readLong_name distinct p counter, long, ?_⟩
  · intro now index there
    rw [← members] at there
    obtain ⟨inside, same⟩ := List.getElem?_eq_some_iff.mp there
    have place : (⟨index, inside⟩ : i.Position) = p :=
      position_eq distinct p (congrArg Metric.name same)
    rw [← place]
    exact i.getElem?_values ⟨index, inside⟩
  · rw [← Int64.toInt_inj, Int32.toInt_toInt64, Int64.toInt_toInt32, long, eq_comm]
    exact bmod_int32_iff

/-- A sum that fits 64 bits and not 32. -/
theorem int_counter_reads_far_out :
    let m : Metric := ⟨"gets", "operations", true, .intCounter⟩
    let updates : List Update :=
      [.incrementBy "gets" Int64.maxValue, .increment "gets", .incrementLong "gets" 3,
        .incrementInt "gets" (-7)]
    StatisticsType.ofMetrics "Cache" [m] = .ok ⟨"Cache", [m]⟩ ∧ m ∈ [m] ∧ m.kind = .intCounter ∧
      let i := (fresh ⟨"Cache", [m]⟩ "thread_1" (.thread 1)).after updates
      ∃ (int : Int32) (long : Int64) (x : Binary64),
        i.readInt "gets" = .ok int ∧ int.toInt = -7 ∧ i.read "gets" = .ok x ∧ x.Denotes int.toInt ∧
        (i.sample 0).values[0]? = some x ∧ i.readLong "gets" = .ok long ∧ long.toInt = 2 ^ 63 - 7 ∧
        long ≠ int.toInt64 := by
  intro m updates
  have built : StatisticsType.ofMetrics "Cache" [m] = .ok ⟨"Cache", [m]⟩ :=
    StatisticsType.ofMetrics_eq_ok_iff.mpr ⟨by decide +kernel, rfl⟩
  refine ⟨built, List.mem_singleton_self m, rfl, ?_⟩
  obtain ⟨int, long, x, readInt, intSum, read, denotes, sampled, readLong, longSum, agree⟩ :=
    int_counter_reads built "thread_1" (.thread 1) updates (List.mem_singleton_self m) rfl
  have sum : (m.deltas updates).sum = 2 ^ 63 - 7 := by decide +kernel
  rw [sum] at intSum longSum agree
  exact ⟨int, long, x, readInt, intSum, read, denotes, sampled 0 0 rfl, readLong, longSum,
    mt agree.mp (by decide)⟩

/-- After one more than the greatest int, one read has wrapped around and the other has not. -/
theorem wrapped_counter_reads_differ :
    let m : Metric := ⟨"gets", "operations", true, .intCounter⟩
    let updates : List Update := [.incrementInt "gets" Int32.maxValue, .incrementInt "gets" 1]
    StatisticsType.ofMetrics "Cache" [m] = .ok ⟨"Cache", [m]⟩ ∧
      let i := (fresh ⟨"Cache", [m]⟩ "thread_1" (.thread 1)).after updates
      i.readInt "gets" = .ok Int32.minValue ∧ i.readLong "gets" = .ok 0x80000000 ∧
        (0x80000000 : Int64) ≠ Int32.minValue.toInt64 ∧
        ∃ x, i.read "gets" = .ok x ∧ x.Denotes (-0x80000000) ∧ ¬ x.Denotes 0x80000000 := by
  intro m updates
  refine ⟨StatisticsType.ofMetrics_eq_ok_iff.mpr ⟨by decide +kernel, rfl⟩, by decide +kernel,
    by decide +kernel, by decide, .ofInt (-0x80000000), by decide +kernel, by decide +kernel,
    by decide +kernel⟩

end Instance

end Coordination
