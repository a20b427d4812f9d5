import Coordination.Rounds.Campaign

/-!
What a controller plans: the order of a round lists every task once, the batches cut it up, and a batch
gives ticks, tasks and workers to one another.
-/

namespace Coordination

/-! Orders. -/

theorem shuffleFrom_succ {α : Type} {n : Nat} (g : Generator) (items : Vector α n) {place : Nat}
    (inside : place + 1 < n) :
    shuffleFrom g items (place + 1) inside =
      let (chosen, g) := g.below (Nat.succ_pos (place + 1))
      shuffleFrom g
        (items.swap (place + 1) chosen inside (Nat.lt_of_lt_of_le chosen.isLt inside)) place
        (Nat.lt_of_succ_lt inside) := by
  rfl

theorem shuffleFrom_perm {α : Type} {n : Nat} (g : Generator) (items : Vector α n) (place : Nat)
    (inside : place < n) : (shuffleFrom g items place inside).1.Perm items := by
  induction place generalizing g items with
  | zero =>
      unfold shuffleFrom
      exact .refl _
  | succ place induction =>
      rw [shuffleFrom_succ]
      exact (induction _ _ _).trans (Vector.swap_perm inside _)

theorem shuffle_perm {α : Type} {n : Nat} (g : Generator) (items : Vector α n) :
    (shuffle g items).1.Perm items := by
  unfold shuffle
  split
  · exact shuffleFrom_perm g items _ _
  · exact .refl _

namespace Policy

theorem order_perm (policy : Policy) (tasks : Nat) :
    (policy.order tasks).1.Perm (List.range tasks) := by
  cases policy with
  | roundRobin => exact .refl _
  | random generator =>
      have shuffled := (shuffle_perm generator (Vector.range tasks)).toList
      rwa [Vector.toList_range] at shuffled

theorem orderAfter_perm (policy : Policy) (tasks rounds : Nat) :
    (policy.orderAfter tasks rounds).Perm (List.range tasks) := order_perm _ _

end Policy

namespace Controller

variable {ω : Type}

theorem foldl_register (tasks : List Task) (c : Controller ω) :
    tasks.foldl register c = { c with tasks := c.tasks ++ tasks } := by
  induction tasks generalizing c with
  | nil => rw [List.foldl_nil, List.append_nil]
  | cons task tasks induction =>
      rw [List.foldl_cons, induction, register, List.append_assoc]
      rfl

theorem assemble_eq (tasks : List Task) (workers : List (Worker ω)) (policy : Policy) (mode : Mode)
    (haltOnFailure : Bool) :
    assemble tasks workers policy mode haltOnFailure =
      { create workers policy with tasks, mode, haltOnFailure } := by
  rw [assemble, foldl_register]
  rfl

/-! Batches. -/

theorem flatten_batches {α : Type} (size : Nat) (items : List α) :
    (batches size items).flatten = items := by
  induction items using batches.induct size with
  | case1 => rw [batches, List.flatten_nil]
  | case2 item rest induction =>
      rw [batches, List.flatten_cons, induction, List.cons_append, List.take_append_drop]

theorem length_of_mem_batches {α : Type} {size : Nat} (positive : 0 < size) {items batch : List α}
    (member : batch ∈ batches size items) : 0 < batch.length ∧ batch.length ≤ size := by
  induction items using batches.induct size with
  | case1 =>
      rw [batches] at member
      cases member
  | case2 item rest induction =>
      rw [batches] at member
      rcases List.mem_cons.mp member with rfl | later
      · simp only [List.length_cons, List.length_take]
        omega
      · exact induction later

theorem staffed_of_ready {c : Controller ω} (ready : c.notReady? = none) : c.workers ≠ [] := by
  unfold notReady? at ready
  split at ready
  · cases ready
  · split at ready
    · cases ready
    · rename_i nonempty
      exact fun empty => nonempty (by rw [empty]; rfl)

theorem batchSize_pos {c : Controller ω} (staffed : c.workers ≠ []) : 0 < c.batchSize := by
  have some := List.length_pos_iff.mpr staffed
  unfold batchSize
  split
  · exact Nat.one_pos
  · exact some
  · rename_i maxConcurrent nonzero _
    exact Nat.lt_min.mpr ⟨Nat.pos_of_ne_zero nonzero, some⟩

theorem batchSize_le {c : Controller ω} (staffed : c.workers ≠ []) :
    c.batchSize ≤ c.workers.length := by
  have some := List.length_pos_iff.mpr staffed
  unfold batchSize
  split
  · exact some
  · exact Nat.le_refl _
  · exact Nat.min_le_right _ _

/-! Assignments. -/

def tasksAt (c : Controller ω) (order : List Nat) : List Task := order.filterMap (c.tasks[·]?)

theorem tasksAt_range (c : Controller ω) : c.tasksAt (List.range c.tasks.length) = c.tasks := by
  unfold tasksAt
  induction c.tasks with
  | nil => rfl
  | cons task tasks induction =>
      rw [List.length_cons, List.range_succ_eq_map, List.filterMap_cons_some List.getElem?_cons_zero,
        List.filterMap_map]
      exact congrArg (task :: ·) induction

theorem assign?_of_lt {c : Controller ω} (staffed : c.workers ≠ []) (tick : Nat) {index : Nat}
    (known : index < c.tasks.length) :
    ∃ worker, c.workers[tick % c.workers.length]? = some worker ∧
      c.assign? tick index = some ⟨tick, c.tasks[index], worker⟩ := by
  have inside := Nat.mod_lt tick (List.length_pos_iff.mpr staffed)
  refine ⟨c.workers[tick % c.workers.length], List.getElem?_eq_getElem inside, ?_⟩
  simp [assign?, List.getElem?_eq_getElem known, List.getElem?_eq_getElem inside]

theorem assignments_cons {c : Controller ω} {index : Nat} {a : Assignment ω} (batch : List Nat)
    (assigned : c.assign? c.tick index = some a) :
    c.assignments (index :: batch) = a :: assignments { c with tick := c.tick + 1 } batch := by
  rw [assignments, List.zipIdx_cons', List.filterMap_cons]
  simp only [Nat.add_zero, assigned, List.filterMap_map]
  refine congrArg (a :: ·) (congrArg (List.filterMap · batch.zipIdx) ?_)
  funext ⟨index, offset⟩
  simp only [Function.comp_apply, Prod.map_apply, id_eq, assign?]
  rw [Nat.add_assoc, Nat.add_comm 1 offset]

/-- Tasks go out in order, each with the next tick, which picks its worker. -/
theorem assignments_spec {c : Controller ω} (staffed : c.workers ≠ []) {batch : List Nat}
    (known : ∀ index ∈ batch, index < c.tasks.length) :
    (c.assignments batch).map (·.tick) = List.range' c.tick batch.length ∧
      (c.assignments batch).map (·.task) = c.tasksAt batch ∧
      ∀ a ∈ c.assignments batch, c.workers[a.tick % c.workers.length]? = some a.worker := by
  induction batch generalizing c with
  | nil => exact ⟨rfl, rfl, nofun⟩
  | cons index batch induction =>
      obtain ⟨first, others⟩ := List.forall_mem_cons.mp known
      obtain ⟨worker, chosen, assigned⟩ := assign?_of_lt staffed c.tick first
      have later : (({ c with tick := c.tick + 1 } : Controller ω).assignments batch).map (·.tick) =
          List.range' (c.tick + 1) batch.length ∧ _ := induction staffed others
      obtain ⟨ticks, tasks, workers⟩ := later
      have found : c.tasks[index]? = some c.tasks[index] := List.getElem?_eq_getElem first
      rw [assignments_cons batch assigned]
      refine ⟨?_, ?_, List.forall_mem_cons.mpr ⟨chosen, workers⟩⟩
      · rw [List.map_cons, ticks]
        rfl
      · rw [List.map_cons, tasks, tasksAt, tasksAt, List.filterMap_cons_some found]

theorem length_assignments {c : Controller ω} (staffed : c.workers ≠ []) {batch : List Nat}
    (known : ∀ index ∈ batch, index < c.tasks.length) :
    (c.assignments batch).length = batch.length := by
  have ticks := congrArg List.length (assignments_spec staffed known).1
  rwa [List.length_map, List.length_range'] at ticks

/-- Fewer consecutive numbers than a modulus differ by it. -/
theorem nodup_range'_mod (start : Nat) {count modulus : Nat} (small : count ≤ modulus) :
    ((List.range' start count).map (· % modulus)).Nodup := by
  refine List.pairwise_map.mpr (List.Pairwise.imp_of_mem ?_ List.pairwise_lt_range')
  intro a b memberA memberB less same
  have boundA := List.mem_range'_1.mp memberA
  have boundB := List.mem_range'_1.mp memberB
  have divides : modulus ∣ b - a :=
    Nat.dvd_of_mod_eq_zero (Nat.sub_mod_eq_zero_of_mod_eq same.symm)
  have := Nat.le_of_dvd (by omega) divides
  omega

/-! What comes of a batch. -/

/-- Round, tick, task and worker, as an outcome tells them. -/
abbrev Heading := Nat × Nat × String × String

def Assignment.heading (round : Nat) (a : Assignment ω) : Heading :=
  (round, a.tick, a.task.name, a.worker.id)

end Controller

def TaskOutcome.heading (o : TaskOutcome) : Controller.Heading := (o.round, o.tick, o.task, o.worker)

namespace Controller

variable {ω : Type}

/-- Each task goes to its worker in the world that the call before it has left, and its outcome is what
this call reports. -/
inductive Performed (round : Nat) : ω → List (Assignment ω) → List TaskOutcome → ω → Prop where
  | nothing (world : ω) : Performed round world [] [] world
  | call {world between after : ω} {a : Assignment ω} {sent : List (Assignment ω)}
      {report : CallReport} {later : List TaskOutcome}
      (called : a.worker.call a.task world = some (report, between))
      (performed : Performed round between sent later after) :
      Performed round world (a :: sent)
        (⟨round, a.tick, a.task.name, a.worker.id, report⟩ :: later) after

/-- One of the calls gives nothing, and those before it come back. -/
inductive Hangs : ω → List (Assignment ω) → Prop where
  | here {world : ω} {a : Assignment ω} (sent : List (Assignment ω))
      (called : a.worker.call a.task world = none) : Hangs world (a :: sent)
  | later {world between : ω} {a : Assignment ω} {sent : List (Assignment ω)} {report : CallReport}
      (called : a.worker.call a.task world = some (report, between)) (hangs : Hangs between sent) :
      Hangs world (a :: sent)

theorem performed_of_runAssignments {round : Nat} {sent : List (Assignment ω)} {world after : ω}
    {outcomes : List TaskOutcome}
    (ran : runAssignments round sent world = some (outcomes, after)) :
    Performed round world sent outcomes after := by
  induction sent generalizing world outcomes with
  | nil =>
      cases ran
      exact .nothing _
  | cons a sent induction =>
      simp only [runAssignments, Option.bind_eq_bind, Option.bind_eq_some_iff, Prod.exists] at ran
      obtain ⟨report, between, called, later, last, ranLater, same⟩ := ran
      cases same
      exact .call called (induction ranLater)

theorem hangs_of_runAssignments {round : Nat} {sent : List (Assignment ω)} {world : ω}
    (ran : runAssignments round sent world = none) : Hangs world sent := by
  induction sent generalizing world with
  | nil => cases ran
  | cons a sent induction =>
      cases called : a.worker.call a.task world with
      | none => exact .here sent called
      | some result =>
          obtain ⟨report, between⟩ := result
          refine .later called (induction ?_)
          cases ranLater : runAssignments round sent between with
          | none => rfl
          | some later => simp [runAssignments, called, ranLater] at ran

theorem Performed.headings {round : Nat} {world after : ω} {sent : List (Assignment ω)}
    {outcomes : List TaskOutcome} (performed : Performed round world sent outcomes after) :
    outcomes.map (·.heading) = sent.map (·.heading round) := by
  induction performed with
  | nothing => rfl
  | call _ _ induction =>
      rw [List.map_cons, List.map_cons, induction]
      rfl

/-- Records say nothing about what is to be sent next, save that they may halt or stop the rest. -/
theorem foldl_record (c : Controller ω) (outcomes : List TaskOutcome) :
    ∃ records failed, outcomes.foldl record c =
      { c with
        records, failed
        halted := c.halted || outcomes.any fun o => o.failed && c.haltOnFailure
        stopped := c.stopped || outcomes.any (·.report.stopRequested) } := by
  induction outcomes generalizing c with
  | nil => exact ⟨c.records, c.failed, by simp⟩
  | cons o outcomes induction =>
      obtain ⟨records, failed, folded⟩ := induction (c.record o)
      refine ⟨records, failed, ?_⟩
      rw [List.foldl_cons, folded]
      simp [record, Bool.or_assoc]

/-- A batch that comes back tells of every task that was sent, and all that is planned from then on is
planned as it was before, but for the tick. -/
theorem runBatch_spec {c after : Controller ω} {batch : List Nat} {world last : ω}
    {outcomes : List TaskOutcome} (ran : c.runBatch batch world = some (outcomes, after, last)) :
    outcomes.map (·.heading) = (c.assignments batch).map (·.heading c.round) ∧
      ∃ records failed, after =
        { c with
          tick := c.tick + batch.length
          records, failed
          halted := c.halted || outcomes.any fun o => o.failed && c.haltOnFailure
          stopped := c.stopped || outcomes.any (·.report.stopRequested) } := by
  simp only [runBatch, Option.map_eq_some_iff, Prod.exists] at ran
  obtain ⟨told, world', ran, same⟩ := ran
  cases same
  refine ⟨(performed_of_runAssignments ran).headings, ?_⟩
  obtain ⟨records, failed, folded⟩ := foldl_record { c with tick := c.tick + batch.length } outcomes
  exact ⟨records, failed, folded⟩

theorem performed_of_runBatch {c after : Controller ω} {batch : List Nat} {world last : ω}
    {outcomes : List TaskOutcome} (ran : c.runBatch batch world = some (outcomes, after, last)) :
    Performed c.round world (c.assignments batch) outcomes last := by
  simp only [runBatch, Option.map_eq_some_iff, Prod.exists] at ran
  obtain ⟨told, world', ran, same⟩ := ran
  cases same
  exact performed_of_runAssignments ran

theorem hangs_of_runBatch {c : Controller ω} {batch : List Nat} {world : ω}
    (ran : c.runBatch batch world = none) : Hangs world (c.assignments batch) :=
  hangs_of_runAssignments (Option.map_eq_none_iff.mp ran)

end Controller

end Coordination
