import Coordination.Proofs.Rounds.Schedule
import Coordination.Proofs.Table

/-!
What a controller keeps of the outcomes that it has recorded: how many failed, and for each task that
was dispatched its calls and its failures, whatever the latencies.
-/

namespace Coordination

namespace Latencies

theorem calls_eq_sum (l : Latencies) : l.calls = (l.counts.values.map id).sum := by
  rw [List.map_id, List.sum_eq_foldl]
  rfl

theorem calls_record (l : Latencies) (nanoseconds : Nat) : (l.record nanoseconds).calls = l.calls + 1 := by
  rw [calls_eq_sum, calls_eq_sum]
  exact l.counts.sum_values_modify (recorded nanoseconds) rfl fun _ => rfl

end Latencies

namespace RunSummary

/-- The summary counts these outcomes and no others. -/
structure Counts (summary : RunSummary) (outcomes : List TaskOutcome) : Prop where
  dispatched : summary.dispatched = outcomes.length
  failed : summary.failed = outcomes.countP (·.failed)
  allCalls : (summary.tasks.map fun entry => entry.2.latencies.calls).sum = summary.dispatched
  allFailures : (summary.tasks.map fun entry => entry.2.failures).sum = summary.failed
  ascending : (summary.tasks.map (·.1)).Pairwise (· < ·)
  listed : ∀ name, name ∈ summary.tasks.map (·.1) ↔ ∃ o ∈ outcomes, o.task = name
  calls : ∀ entry ∈ summary.tasks,
    entry.2.latencies.calls = outcomes.countP fun o => o.task = entry.1
  failures : ∀ entry ∈ summary.tasks,
    entry.2.failures = outcomes.countP fun o => o.task = entry.1 ∧ o.failed = true

end RunSummary

namespace Controller

variable {ω : Type}

/-- What is kept of a task, where none of its outcomes counts as an empty record. -/
def recordOf (c : Controller ω) (name : String) : TaskRecord := (c.records.get? name).getD .empty

/-- The records are those of the outcomes given. -/
structure Tallied (c : Controller ω) (outcomes : List TaskOutcome) : Prop where
  failed : c.failed = outcomes.countP (·.failed)
  allCalls : (c.records.values.map (·.latencies.calls)).sum = outcomes.length
  allFailures : (c.records.values.map (·.failures)).sum = outcomes.countP (·.failed)
  listed : ∀ name, name ∈ c.records.keys ↔ ∃ o ∈ outcomes, o.task = name
  calls : ∀ name, (c.recordOf name).latencies.calls = outcomes.countP fun o => o.task = name
  failures : ∀ name,
    (c.recordOf name).failures = outcomes.countP fun o => o.task = name ∧ o.failed = true

variable {c : Controller ω} {outcomes : List TaskOutcome}

/-- Nothing else of the controller bears on it. -/
theorem Tallied.of_same {next : Controller ω} (tallied : Tallied c outcomes)
    (failed : next.failed = c.failed) (records : next.records = c.records) : Tallied next outcomes := by
  have recordOf (name : String) : next.recordOf name = c.recordOf name := by
    rw [Controller.recordOf, records]
    rfl
  refine ⟨failed.trans tallied.failed, ?_, ?_, ?_, fun name => ?_, fun name => ?_⟩
  · rw [records]
    exact tallied.allCalls
  · rw [records]
    exact tallied.allFailures
  · rw [records]
    exact tallied.listed
  · rw [recordOf]
    exact tallied.calls name
  · rw [recordOf]
    exact tallied.failures name

theorem recordOf_record (c : Controller ω) (o : TaskOutcome) (name : String) :
    (c.record o).recordOf name =
      if name = o.task then (c.recordOf name).add o else c.recordOf name := by
  rw [recordOf, record, Table.get?_modify]
  split
  · rename_i same
    rw [same]
    rfl
  · rfl

theorem Tallied.record (tallied : Tallied c outcomes) (o : TaskOutcome) :
    Tallied (c.record o) (outcomes ++ [o]) where
  failed := by
    rw [List.countP_append, List.countP_singleton, ← tallied.failed]
    rfl
  allCalls := by
    have sum : ((c.record o).records.values.map (·.latencies.calls)).sum =
        (c.records.values.map (·.latencies.calls)).sum + 1 :=
      c.records.sum_values_modify o.task rfl fun r => r.latencies.calls_record o.report.elapsedNs
    rw [sum, tallied.allCalls, List.length_append, List.length_singleton]
  allFailures := by
    have sum : ((c.record o).records.values.map (·.failures)).sum =
        (c.records.values.map (·.failures)).sum + if o.failed then 1 else 0 :=
      c.records.sum_values_modify o.task rfl fun _ => rfl
    rw [sum, tallied.allFailures, List.countP_append, List.countP_singleton]
  listed := by
    intro name
    have earlier := tallied.listed name
    rw [Table.mem_keys_iff] at earlier ⊢
    change (∃ value, (c.records.modify o.task .empty (·.add o)).get? name = some value) ↔ _
    rw [Table.get?_modify]
    split
    · rename_i same
      simp [same]
    · rename_i other
      simp [earlier, Ne.symm other]
  calls := by
    intro name
    rw [recordOf_record, List.countP_append, List.countP_singleton, ← tallied.calls]
    split
    · rename_i same
      simp [same, TaskRecord.add, Latencies.calls_record]
    · rename_i other
      simp [Ne.symm other]
  failures := by
    intro name
    rw [recordOf_record, List.countP_append, List.countP_singleton, ← tallied.failures]
    split
    · rename_i same
      simp [same, TaskRecord.add]
    · rename_i other
      simp [Ne.symm other]

theorem Tallied.foldl_record (tallied : Tallied c outcomes) (told : List TaskOutcome) :
    Tallied (told.foldl Controller.record c) (outcomes ++ told) := by
  induction told generalizing c outcomes with
  | nil => rwa [List.append_nil]
  | cons o told induction =>
      rw [List.foldl_cons, ← List.singleton_append, ← List.append_assoc]
      exact induction (tallied.record o)

theorem Tallied.runBatch (tallied : Tallied c outcomes) {after : Controller ω} {batch : List Nat}
    {world last : ω} {told : List TaskOutcome}
    (ran : c.runBatch batch world = some (told, after, last)) : Tallied after (outcomes ++ told) := by
  simp only [Controller.runBatch, Option.map_eq_some_iff, Prod.exists] at ran
  obtain ⟨told, world', -, same⟩ := ran
  cases same
  have sameRecords : Tallied { c with tick := c.tick + batch.length } outcomes :=
    tallied.of_same rfl rfl
  exact sameRecords.foldl_record told

theorem tallied_assemble (tasks : List Task) (workers : List (Worker ω)) (policy : Policy)
    (mode : Mode) (haltOnFailure : Bool) :
    Tallied (assemble tasks workers policy mode haltOnFailure) [] := by
  rw [assemble_eq]
  exact ⟨rfl, rfl, rfl, fun _ => by simp [create, Table.keys, Table.empty], fun _ => rfl, fun _ => rfl⟩

theorem Tallied.summary (tallied : Tallied c outcomes) (dispatched : c.tick = outcomes.length)
    (roundsCompleted : Nat) : (c.summary roundsCompleted).Counts outcomes where
  dispatched := dispatched
  failed := tallied.failed
  allCalls := by
    have sum := tallied.allCalls
    rw [Table.values, List.map_map] at sum
    exact sum.trans dispatched.symm
  allFailures := by
    have sum := tallied.allFailures
    rw [Table.values, List.map_map] at sum
    exact sum.trans tallied.failed.symm
  ascending := c.records.pairwise_keys.imp compareOfLessAndEq_eq_lt.mp
  listed := tallied.listed
  calls := by
    intro entry member
    have found := (c.records.mem_entries_iff entry.1 entry.2).mp member
    rw [← tallied.calls, recordOf, found]
    rfl
  failures := by
    intro entry member
    have found := (c.records.mem_entries_iff entry.1 entry.2).mp member
    rw [← tallied.failures, recordOf, found]
    rfl

end Controller

end Coordination
