import Coordination.Proofs.InPlace
import Coordination.Proofs.Statistics.Metric
import Coordination.Statistics.History

/-!
Metrics of an instance by their names. Where no name stands twice, every metric is found under its own,
and what is read under a name is what is at its place. An update looks for its metric before it changes
anything, so one that is refused spares the instance.
-/

namespace Coordination.Instance

variable {i : Instance}

/-! Updates. -/

theorem on_changeMetric (i : Instance) (metric : String) (accepts : MetricKind → Bool)
    (expected : String) (change : Counter → Counter) :
    (changeMetric metric accepts expected change).on i =
      match i.expect metric accepts expected with
      | .ok p => (.ok (), i.changeSlot p change)
      | .error fault => (.error fault, i) := by
  rw [changeMetric, InPlace.on_get_bind]
  cases i.expect metric accepts expected <;> rfl

theorem final_changeMetric (i : Instance) (metric : String) (accepts : MetricKind → Bool)
    (expected : String) (change : Counter → Counter) :
    (changeMetric metric accepts expected change).final i =
      (i.expect metric accepts expected).map fun p => i.changeSlot p change := by
  rw [InPlace.final, InPlace.value, on_changeMetric]
  cases i.expect metric accepts expected <;> rfl

theorem spares_changeMetric (i : Instance) (metric : String) (accepts : MetricKind → Bool)
    (expected : String) (change : Counter → Counter) :
    (changeMetric metric accepts expected change).Spares i fun _ after =>
      ∃ p, after = i.changeSlot p change := by
  unfold InPlace.Spares
  rw [on_changeMetric]
  cases i.expect metric accepts expected with
  | error fault => rfl
  | ok p => exact ⟨p, rfl⟩

/-- An update changes one slot, or nothing if it is refused. -/
theorem spares_inPlace (i : Instance) (u : Update) :
    u.inPlace.Spares i fun _ after => ∃ p change, after = i.changeSlot p change := by
  have spares (metric : String) (accepts : MetricKind → Bool) (expected : String)
      (change : Counter → Counter) : (changeMetric metric accepts expected change).Spares i
        fun _ after => ∃ p change, after = i.changeSlot p change :=
    (i.spares_changeMetric metric accepts expected change).mono fun _ _ ⟨p, same⟩ =>
      ⟨p, change, same⟩
  cases u <;> exact spares ..

/-! Names. -/

theorem exists_position {m : Metric} (member : m ∈ i.type.metrics) :
    ∃ p : i.Position, i.type.metrics.get p = m := List.mem_iff_get.mp member

theorem position?_of_undeclared {metric : String}
    (undeclared : ∀ m ∈ i.type.metrics, m.name ≠ metric) : i.position? metric = none := by
  have absent : i.type.index? metric = none := by
    rw [StatisticsType.index?, List.findIdx?_eq_none_iff]
    exact fun m member => by simpa using undeclared m member
  simp only [position?, absent]

theorem resolve_of_undeclared {metric : String}
    (undeclared : ∀ m ∈ i.type.metrics, m.name ≠ metric) :
    i.resolve metric = .error (.unknownMetric i.type.name metric) := by
  rw [resolve, position?_of_undeclared undeclared]

theorem expect_of_undeclared {metric expected : String} {accepts : MetricKind → Bool}
    (undeclared : ∀ m ∈ i.type.metrics, m.name ≠ metric) :
    i.expect metric accepts expected = .error (.unknownMetric i.type.name metric) := by
  rw [expect, resolve_of_undeclared undeclared]
  rfl

section Named

variable (distinct : (i.type.metrics.map (·.name)).Nodup) (p : i.Position)

include distinct

theorem position?_name : i.position? (i.type.metrics.get p).name = some p := by
  have found : i.type.index? (i.type.metrics.get p).name = some p.val := by
    rw [StatisticsType.index?, List.findIdx?_eq_some_iff_getElem]
    refine ⟨p.isLt, by simp, ?_⟩
    intro earlier before
    have apart := List.pairwise_iff_getElem.mp (List.pairwise_map.mp distinct) earlier p.val
      (before.trans p.isLt) p.isLt before
    simpa using apart
  simp only [position?, found, p.isLt, dite_true]

theorem position_eq {q : i.Position} (same : (i.type.metrics.get q).name = (i.type.metrics.get p).name) :
    q = p := by
  have found := position?_name distinct q
  rw [same, position?_name distinct p] at found
  exact (Option.some.inj found).symm

theorem resolve_name : i.resolve (i.type.metrics.get p).name = .ok p := by
  rw [resolve, position?_name distinct]

theorem expect_name {accepts : MetricKind → Bool} {expected : String} :
    i.expect (i.type.metrics.get p).name accepts expected =
      if accepts (i.kindAt p) then .ok p
      else .error (.metricKindMismatch i.type.name (i.type.metrics.get p).name expected
        (i.kindAt p).label) := by
  rw [expect, resolve_name distinct]
  rfl

theorem expect_accepted {accepts : MetricKind → Bool} {expected : String}
    (accepted : accepts (i.kindAt p) = true) :
    i.expect (i.type.metrics.get p).name accepts expected = .ok p := by
  rw [expect_name distinct, if_pos accepted]

theorem readInt_name (kind : i.kindAt p = .intCounter) :
    i.readInt (i.type.metrics.get p).name = .ok (i.slots.get p).value.toInt32 := by
  rw [readInt, expect_accepted distinct p (by simp [kind])]
  rfl

theorem readLong_name (counter : (i.kindAt p).isCounter = true) :
    i.readLong (i.type.metrics.get p).name = .ok (i.slots.get p).value := by
  rw [readLong, expect_accepted distinct p counter]
  rfl

theorem read_name : i.read (i.type.metrics.get p).name = .ok (i.valueAt p) := by
  rw [read, resolve_name distinct]
  rfl

end Named

theorem valueWithin?_of_stored {p : i.Position} (stored : (i.kindAt p).isStored = true)
    (levels : Nat) :
    i.valueWithin? levels p = some (storedValue (i.kindAt p) (i.slots.get p)) := by
  rw [valueWithin?.eq_def]
  cases kind : i.kindAt p with
  | intCounter | longCounter | gauge => rfl
  | derived numerator denominator => simp [kind, MetricKind.isStored] at stored

theorem valueAt_of_stored {p : i.Position} (stored : (i.kindAt p).isStored = true) :
    i.valueAt p = storedValue (i.kindAt p) (i.slots.get p) := by
  rw [valueAt, valueWithin?_of_stored stored, Option.getD_some]

theorem length_values (i : Instance) : i.values.length = i.type.metrics.length := by
  rw [values, List.length_map, List.length_finRange]

theorem getElem?_values (i : Instance) (p : i.Position) : i.values[p.val]? = some (i.valueAt p) := by
  simp [values]

end Coordination.Instance
