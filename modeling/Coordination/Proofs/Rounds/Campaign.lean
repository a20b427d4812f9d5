import Coordination.Proofs.Rounds.Calls

/-!
What every step of a campaign keeps: ticks without gaps, batches that suit the workers, and rounds in
the order of the policy. So it holds of all that a controller does in its life, stopped or not.
-/

namespace Coordination

namespace Campaign

variable {ω : Type}

/-! What is to hold of a batch, a round and an answer. -/

/-- The tasks of the round that comes after this many rounds, in its order. -/
def planned (c : Controller ω) (rounds : Nat) : List Task :=
  c.tasksAt (c.policy.orderAfter c.tasks.length rounds)

theorem planned_perm (c : Controller ω) (rounds : Nat) : (planned c rounds).Perm c.tasks := by
  have indices := Policy.orderAfter_perm c.policy c.tasks.length rounds
  have tasks := indices.filterMap (c.tasks[·]?)
  rwa [← Controller.tasksAt, ← Controller.tasksAt, Controller.tasksAt_range] at tasks

namespace Batch

structure Proper (c : Controller ω) (batch : Batch ω) : Prop where
  nonempty : 0 < batch.assignments.length
  small : batch.assignments.length ≤ c.batchSize
  workers : ∀ a ∈ batch.assignments, c.workers[a.tick % c.workers.length]? = some a.worker
  apart : (batch.assignments.map fun a => a.tick % c.workers.length).Nodup

/-- Every task has come back, and the outcomes tell of the tasks in order. -/
def Told (batch : Batch ω) : Prop :=
  batch.outcomes.map (·.heading) = batch.assignments.map (·.heading batch.round)

theorem Told.ticks {batch : Batch ω} (told : batch.Told) :
    batch.outcomes.map (·.tick) = batch.assignments.map (·.tick) := by
  have ticks := congrArg (List.map fun heading : Controller.Heading => heading.2.1) told
  rwa [List.map_map, List.map_map] at ticks

theorem ticks_of_told {batches : List (Batch ω)} (told : ∀ batch ∈ batches, batch.Told) :
    (batches.flatMap (·.outcomes)).map (·.tick) = (batches.flatMap (·.assignments)).map (·.tick) := by
  induction batches with
  | nil => rfl
  | cons batch batches induction =>
      obtain ⟨first, others⟩ := List.forall_mem_cons.mp told
      rw [List.flatMap_cons, List.flatMap_cons, List.map_append, List.map_append, first.ticks,
        induction others]

end Batch

/-- A round keeps to its plan, from its start and, unless it is interrupted, to its end. -/
structure Lap.Follows (c : Controller ω) (rounds : Nat) (lap : Lap ω) : Prop where
  numbered : ∀ batch ∈ lap.batches, batch.round = rounds + 1
  told : ∀ batch ∈ lap.batches, batch.Told
  inOrder : lap.assignments.map (·.task) <+: planned c rounds
  toTheEnd : lap.interrupted = false → lap.assignments.map (·.task) = planned c rounds

theorem Lap.Follows.headings {c : Controller ω} {rounds : Nat} {lap : Lap ω}
    (follows : lap.Follows c rounds) :
    lap.outcomes.map (·.heading) = lap.assignments.map (·.heading (rounds + 1)) := by
  obtain ⟨numbered, told, -, -⟩ := follows
  obtain ⟨batches, interrupted⟩ := lap
  rw [Lap.outcomes, Lap.assignments]
  induction batches with
  | nil => rfl
  | cons batch batches induction =>
      obtain ⟨number, numberedLater⟩ := List.forall_mem_cons.mp numbered
      obtain ⟨first, toldLater⟩ := List.forall_mem_cons.mp told
      rw [List.flatMap_cons, List.flatMap_cons, List.map_append, List.map_append,
        induction numberedLater toldLater, first, number]

/-- Count of the rounds that brought back as many outcomes as there are tasks. -/
def tally (c : Controller ω) (laps : List (Lap ω)) : Nat :=
  laps.countP fun lap => lap.outcomes.length = c.tasks.length

def Errand.Right (c : Controller ω) (errand : Errand ω) : Prop :=
  match errand.answer with
  | .refused _ => errand.laps = []
  | .outcomes outcomes => ∃ lap, errand.laps = [lap] ∧ outcomes = lap.outcomes
  | .summary summary => summary.roundsCompleted = tally c errand.laps

/-! What holds after every step. -/

structure SetUp (c : Controller ω) (now : Controller ω) : Prop where
  tasks : now.tasks = c.tasks
  workers : now.workers = c.workers
  mode : now.mode = c.mode
  haltOnFailure : now.haltOnFailure = c.haltOnFailure
  policy : now.policy = c.policy.after c.tasks.length now.round

/-- What has been done by a controller that was set up as `c` is. -/
structure Logged (c : Controller ω) (s : Campaign ω) : Prop where
  setUp : SetUp c s.controller
  ticks : (s.sent.flatMap (·.assignments)).map (·.tick) = List.range s.controller.tick
  reported : ∃ count, (s.sent.flatMap (·.outcomes)).map (·.tick) = List.range count
  proper : ∀ batch ∈ s.sent, batch.Proper c
  told : ∀ batch ∈ s.sent, batch.Told ∨ batch.outcomes = []
  follows : ∀ (rounds : Nat) (lap : Lap ω), s.ended[rounds]? = some lap → lap.Follows c rounds
  excused : ∀ lap ∈ s.ended, lap.interrupted = true → s.controller.shouldHalt = true
  right : ∀ errand ∈ s.errands, errand.Right c

structure Resting (s : Campaign ω) : Prop where
  round : s.controller.round = s.ended.length
  batches : s.batches = []
  laps : s.laps = []

structure BetweenRounds (c : Controller ω) (s : Campaign ω) (completed : Nat) : Prop where
  staffed : c.workers ≠ []
  round : s.controller.round = s.ended.length
  batches : s.batches = []
  tallied : completed = tally c s.laps

/-- What has been sent in this round and what is left make up its plan. -/
structure InRound (c : Controller ω) (s : Campaign ω) (left : List (List Nat))
    (series : Option (Nat × Nat)) : Prop where
  staffed : c.workers ≠ []
  round : s.controller.round = s.ended.length + 1
  plan : planned c s.ended.length =
    (s.batches.flatMap (·.assignments)).map (·.task) ++ c.tasksAt left.flatten
  sizes : ∀ batch ∈ left, 0 < batch.length ∧ batch.length ≤ c.batchSize
  known : ∀ batch ∈ left, ∀ index ∈ batch, index < c.tasks.length
  numbered : ∀ batch ∈ s.batches, batch.round = s.controller.round
  tallied : ∀ rounds completed, series = some (rounds, completed) → completed = tally c s.laps
  alone : series = none → s.laps = []

def Placed (c : Controller ω) (s : Campaign ω) : Phase → Prop
  | .idle => Resting s
  | .betweenRounds _ completed => BetweenRounds c s completed
  | .inRound left series => InRound c s left series
  | .stuck => True

structure Orderly (c : Controller ω) (s : Campaign ω) : Prop where
  logged : Logged c s
  told : s.phase ≠ .stuck → ∀ batch ∈ s.sent, batch.Told
  placed : Placed c s s.phase

variable {c : Controller ω} {s : Campaign ω}

theorem SetUp.batchSize {now : Controller ω} (setUp : SetUp c now) : now.batchSize = c.batchSize := by
  rw [Controller.batchSize, Controller.batchSize, setUp.mode, setUp.workers]

theorem forall_getElem?_concat {α : Type} {p : Nat → α → Prop} {items : List α} {item : α}
    (earlier : ∀ index a, items[index]? = some a → p index a) (last : p items.length item) :
    ∀ index a, (items ++ [item])[index]? = some a → p index a := by
  intro index a found
  rw [List.getElem?_append] at found
  split at found
  · exact earlier index a found
  · rename_i notBefore
    obtain ⟨inside, rfl⟩ := List.getElem?_eq_some_iff.mp found
    rw [List.length_singleton] at inside
    have isLast : index = items.length := by omega
    subst isLast
    simpa using last

/-! Steps that send nothing. -/

theorem Logged.of_same_sent {s' : Campaign ω} (logged : Logged c s)
    (setUp : SetUp c s'.controller) (tick : s'.controller.tick = s.controller.tick)
    (sent : s'.sent = s.sent)
    (follows : ∀ (rounds : Nat) (lap : Lap ω), s'.ended[rounds]? = some lap → lap.Follows c rounds)
    (excused : ∀ lap ∈ s'.ended, lap.interrupted = true → s'.controller.shouldHalt = true)
    (right : ∀ errand ∈ s'.errands, errand.Right c) : Logged c s' where
  setUp := setUp
  ticks := by
    rw [sent, tick]
    exact logged.ticks
  reported := by
    rw [sent]
    exact logged.reported
  proper := by
    rw [sent]
    exact logged.proper
  told := by
    rw [sent]
    exact logged.told
  follows := follows
  excused := excused
  right := right

theorem Orderly.stop (orderly : Orderly c s) : Orderly c s.stop := by
  obtain ⟨tasks, workers, mode, haltOnFailure, policy⟩ := orderly.logged.setUp
  refine ⟨orderly.logged.of_same_sent ⟨tasks, workers, mode, haltOnFailure, policy⟩ rfl rfl
    orderly.logged.follows (fun _ _ _ => Bool.or_true _) orderly.logged.right, orderly.told, ?_⟩
  have placed := orderly.placed
  change Placed c s.stop s.phase
  cases phase : s.phase with
  | idle =>
      rw [phase] at placed
      exact ⟨placed.round, placed.batches, placed.laps⟩
  | betweenRounds rounds completed =>
      rw [phase] at placed
      exact ⟨placed.staffed, placed.round, placed.batches, placed.tallied⟩
  | inRound left series =>
      rw [phase] at placed
      exact ⟨placed.staffed, placed.round, placed.plan, placed.sizes, placed.known, placed.numbered,
        placed.tallied, placed.alone⟩
  | stuck => trivial

theorem Logged.respond (logged : Logged c s) {answer : Answer}
    (right : Errand.Right c ⟨s.laps, answer⟩) : Logged c (s.respond answer) := by
  refine logged.of_same_sent logged.setUp rfl (sent_respond answer) ?_ ?_ ?_
  · rw [ended_respond]
    exact logged.follows
  · rw [ended_respond]
    exact logged.excused
  · exact List.forall_mem_append.mpr ⟨logged.right, List.forall_mem_singleton.mpr right⟩

theorem Orderly.respond (orderly : Orderly c s) (moving : s.phase ≠ .stuck) {answer : Answer}
    (right : Errand.Right c ⟨s.laps, answer⟩) (round : s.controller.round = s.ended.length)
    (batches : s.batches = []) : Orderly c (s.respond answer) := by
  refine ⟨orderly.logged.respond right, fun _ => ?_, ⟨?_, batches, rfl⟩⟩
  · rw [sent_respond]
    exact orderly.told moving
  · rw [ended_respond]
    exact round

theorem Orderly.beginRound (orderly : Orderly c s) (moving : s.phase ≠ .stuck)
    (staffed : c.workers ≠ []) {series : Option (Nat × Nat)}
    (round : s.controller.round = s.ended.length) (batches : s.batches = [])
    (tallied : ∀ rounds completed, series = some (rounds, completed) → completed = tally c s.laps)
    (alone : series = none → s.laps = []) : Orderly c (s.beginRound series) := by
  have setUp := orderly.logged.setUp
  have order : (s.controller.policy.order s.controller.tasks.length).1 =
      c.policy.orderAfter c.tasks.length s.ended.length := by
    rw [setUp.policy, setUp.tasks, round]
    rfl
  have cut : (s.beginRound series).phase =
      .inRound (Controller.batches c.batchSize (c.policy.orderAfter c.tasks.length s.ended.length))
        series := by
    rw [← order, ← setUp.batchSize]
    rfl
  have indices := Policy.orderAfter_perm c.policy c.tasks.length s.ended.length
  refine ⟨orderly.logged.of_same_sent ?_ rfl rfl orderly.logged.follows orderly.logged.excused
    orderly.logged.right, fun _ => orderly.told moving, ?_⟩
  · refine ⟨setUp.tasks, setUp.workers, setUp.mode, setUp.haltOnFailure, ?_⟩
    change (s.controller.policy.order s.controller.tasks.length).2 = _
    rw [setUp.policy, setUp.tasks]
    rfl
  · rw [cut]
    refine ⟨staffed, congrArg (· + 1) round, ?_, ?_, ?_, ?_, tallied, alone⟩
    · change _ = (s.batches.flatMap _).map _ ++ _
      rw [batches, Controller.flatten_batches]
      rfl
    · intro batch member
      exact Controller.length_of_mem_batches (Controller.batchSize_pos staffed) member
    · intro batch member index inBatch
      have inOrder := List.mem_flatten_of_mem member inBatch
      rw [Controller.flatten_batches] at inOrder
      exact List.mem_range.mp (indices.mem_iff.mp inOrder)
    · change ∀ batch ∈ s.batches, _
      rw [batches]
      exact nofun

theorem Orderly.inRound (orderly : Orderly c s) {left : List (List Nat)}
    {series : Option (Nat × Nat)} (phase : s.phase = .inRound left series) :
    InRound c s left series ∧ ∀ batch ∈ s.sent, batch.Told := by
  have placed := orderly.placed
  have told := orderly.told
  rw [phase] at placed told
  exact ⟨placed, told nofun⟩

/-- A round ends as planned if nothing is left of it. -/
theorem InRound.follows {left : List (List Nat)} {series : Option (Nat × Nat)} {interrupted : Bool}
    (here : InRound c s left series) (told : ∀ batch ∈ s.batches, batch.Told)
    (through : interrupted = false → left = []) :
    Lap.Follows c s.ended.length ⟨s.batches, interrupted⟩ where
  numbered := by
    intro batch member
    rw [here.numbered batch member, here.round]
  told := told
  inOrder := ⟨_, here.plan.symm⟩
  toTheEnd := by
    intro notInterrupted
    rw [here.plan, through notInterrupted]
    exact (List.append_nil _).symm

theorem Orderly.endRound (orderly : Orderly c s) {left : List (List Nat)}
    {series : Option (Nat × Nat)} {interrupted : Bool} (phase : s.phase = .inRound left series)
    (through : interrupted = false → left = [])
    (halting : interrupted = true → s.controller.shouldHalt = true) :
    Orderly c (s.endRound interrupted series) := by
  obtain ⟨here, told⟩ := orderly.inRound phase
  have follows := forall_getElem?_concat orderly.logged.follows
    (here.follows (fun batch member => told batch (List.mem_append_right _ member)) through)
  have excused : ∀ lap ∈ s.ended ++ [⟨s.batches, interrupted⟩],
      lap.interrupted = true → s.controller.shouldHalt = true :=
    List.forall_mem_append.mpr ⟨orderly.logged.excused, List.forall_mem_singleton.mpr halting⟩
  rw [← ended_endRound interrupted series] at follows excused
  have round : s.controller.round = (s.endRound interrupted series).ended.length := by
    rw [ended_endRound, List.length_append, here.round]
    rfl
  rw [← sent_endRound interrupted series] at told
  cases series with
  | none =>
      have right : Errand.Right c
          ⟨s.laps ++ [⟨s.batches, interrupted⟩], .outcomes (Lap.outcomes ⟨s.batches, interrupted⟩)⟩ :=
        ⟨_, by rw [here.alone rfl, List.nil_append], rfl⟩
      refine ⟨orderly.logged.of_same_sent orderly.logged.setUp rfl (sent_endRound _ _) follows
        excused ?_, fun _ => told, ⟨round, rfl, rfl⟩⟩
      exact List.forall_mem_append.mpr ⟨orderly.logged.right, List.forall_mem_singleton.mpr right⟩
  | some series =>
      obtain ⟨rounds, completed⟩ := series
      refine ⟨orderly.logged.of_same_sent orderly.logged.setUp rfl (sent_endRound _ _) follows
        excused orderly.logged.right, fun _ => told, ⟨here.staffed, round, rfl, ?_⟩⟩
      change _ = tally c (s.laps ++ [⟨s.batches, interrupted⟩])
      rw [tally, List.countP_append, List.countP_singleton, ← tally,
        ← here.tallied rounds completed rfl, orderly.logged.setUp.tasks]
      simp

/-! Steps that send a batch. -/

theorem Logged.of_sent_batch {s' : Campaign ω} (logged : Logged c s) {batch : Batch ω}
    (setUp : SetUp c s'.controller) (sent : s'.sent = s.sent ++ [batch]) (ended : s'.ended = s.ended)
    (errands : s'.errands = s.errands)
    (halting : s.controller.shouldHalt = true → s'.controller.shouldHalt = true)
    (ticks : batch.assignments.map (·.tick) =
      List.range' s.controller.tick batch.assignments.length)
    (tick : s'.controller.tick = s.controller.tick + batch.assignments.length)
    (proper : batch.Proper c)
    (told : (∀ batch ∈ s.sent, batch.Told) ∧ batch.Told ∨ batch.outcomes = []) : Logged c s' := by
  have allTicks : (s'.sent.flatMap (·.assignments)).map (·.tick) = List.range s'.controller.tick := by
    have joined : List.range' 0 s.controller.tick ++
        List.range' (0 + s.controller.tick) batch.assignments.length = List.range' 0 _ :=
      List.range'_append_1
    rw [Nat.zero_add] at joined
    rw [sent, List.flatMap_append, List.map_append, logged.ticks, List.flatMap_singleton, ticks, tick,
      List.range_eq_range', List.range_eq_range', joined]
  refine ⟨setUp, allTicks, ?_, ?_, ?_, ?_, ?_, ?_⟩
  · rcases told with ⟨earlier, last⟩ | nothing
    · have all : ∀ batch ∈ s'.sent, batch.Told := by
        rw [sent]
        exact List.forall_mem_append.mpr ⟨earlier, List.forall_mem_singleton.mpr last⟩
      exact ⟨_, (Batch.ticks_of_told all).trans allTicks⟩
    · rw [sent, List.flatMap_append, List.flatMap_singleton, nothing, List.append_nil]
      exact logged.reported
  · rw [sent]
    exact List.forall_mem_append.mpr ⟨logged.proper, List.forall_mem_singleton.mpr proper⟩
  · rw [sent]
    refine List.forall_mem_append.mpr ⟨logged.told, List.forall_mem_singleton.mpr ?_⟩
    exact told.imp_left And.right
  · rw [ended]
    exact logged.follows
  · rw [ended]
    exact fun lap member cut => halting (logged.excused lap member cut)
  · rw [errands]
    exact logged.right

theorem SetUp.proper {now : Controller ω} (setUp : SetUp c now) (staffed : c.workers ≠ [])
    {indices : List Nat} (known : ∀ index ∈ indices, index < c.tasks.length)
    (size : 0 < indices.length ∧ indices.length ≤ c.batchSize) (round : Nat)
    (outcomes : List TaskOutcome) :
    Batch.Proper c ⟨round, now.assignments indices, outcomes⟩ := by
  have staffed' : now.workers ≠ [] := setUp.workers ▸ staffed
  have known' : ∀ index ∈ indices, index < now.tasks.length := setUp.tasks ▸ known
  obtain ⟨ticks, -, workers⟩ := Controller.assignments_spec staffed' known'
  have length := Controller.length_assignments staffed' known'
  have small := Nat.le_trans size.2 (Controller.batchSize_le staffed)
  refine ⟨length ▸ size.1, length ▸ size.2, ?_, ?_⟩
  · rw [← setUp.workers]
    exact workers
  · change (List.map _ (now.assignments indices)).Nodup
    have positions := Controller.nodup_range'_mod now.tick small
    rw [← ticks, List.map_map] at positions
    exact positions

theorem Orderly.sendBatch (orderly : Orderly c s) {batch : List Nat} {left : List (List Nat)}
    {series : Option (Nat × Nat)} (phase : s.phase = .inRound (batch :: left) series) :
    Orderly c (s.sendBatch batch left series) := by
  obtain ⟨here, earlierTold⟩ := orderly.inRound phase
  have setUp := orderly.logged.setUp
  obtain ⟨size, laterSizes⟩ := List.forall_mem_cons.mp here.sizes
  obtain ⟨inRange, laterKnown⟩ := List.forall_mem_cons.mp here.known
  have staffed : s.controller.workers ≠ [] := setUp.workers ▸ here.staffed
  have known : ∀ index ∈ batch, index < s.controller.tasks.length := setUp.tasks ▸ inRange
  obtain ⟨ticks, tasks, -⟩ := Controller.assignments_spec staffed known
  have length := Controller.length_assignments staffed known
  rw [← length] at ticks
  have proper := setUp.proper here.staffed inRange size s.controller.round
  rcases sendBatch_cases s batch left series with
    ⟨-, controller, rfl, result⟩ | ⟨outcomes, controller, world, ran, result⟩
  · rw [result]
    refine ⟨orderly.logged.of_sent_batch ?_ (sent_append ..) rfl rfl id ticks ?_ (proper [])
      (.inr rfl), fun moving => absurd rfl moving, trivial⟩
    · exact ⟨setUp.tasks, setUp.workers, setUp.mode, setUp.haltOnFailure, setUp.policy⟩
    · exact congrArg (s.controller.tick + ·) length.symm
  · obtain ⟨told, records, failed, rfl⟩ := Controller.runBatch_spec ran
    rw [result]
    refine ⟨orderly.logged.of_sent_batch ?_ (sent_append ..) rfl rfl ?_ ticks ?_
      (proper outcomes) (.inl ⟨earlierTold, told⟩), ?_,
      ⟨here.staffed, here.round, ?_, laterSizes, laterKnown, ?_, here.tallied, here.alone⟩⟩
    · exact ⟨setUp.tasks, setUp.workers, setUp.mode, setUp.haltOnFailure, setUp.policy⟩
    · simp only [Controller.shouldHalt, Bool.or_eq_true]
      exact Or.imp .inl .inl
    · exact congrArg (s.controller.tick + ·) length.symm
    · rw [sent_append]
      exact fun _ => List.forall_mem_append.mpr ⟨earlierTold, List.forall_mem_singleton.mpr told⟩
    · -- What was next in the plan is now the end of what has been sent.
      have tasksHere : s.controller.tasksAt batch = c.tasksAt batch := by
        rw [Controller.tasksAt, Controller.tasksAt, setUp.tasks]
      change planned c s.ended.length = _
      rw [here.plan, List.flatMap_append, List.map_append, List.flatMap_singleton, tasks, tasksHere,
        List.append_assoc, List.flatten_cons, Controller.tasksAt, List.filterMap_append]
      rfl
    · exact List.forall_mem_append.mpr ⟨here.numbered, List.forall_mem_singleton.mpr rfl⟩

/-! Every step, and every series of steps. -/

theorem Orderly.proceed_idle (orderly : Orderly c s) (phase : s.phase = .idle) :
    Orderly c s.proceed := by
  have moving : s.phase ≠ .stuck := by
    rw [phase]
    exact Phase.noConfusion
  have placed := orderly.placed
  rw [phase] at placed
  rw [Campaign.proceed, phase]
  cases waiting : s.commands with
  | nil => exact orderly
  | cons command commands =>
      have next : Orderly c { s with phase := .idle, commands } :=
        ⟨orderly.logged.of_same_sent orderly.logged.setUp rfl rfl orderly.logged.follows
          orderly.logged.excused orderly.logged.right, fun _ => orderly.told moving,
          ⟨placed.round, placed.batches, placed.laps⟩⟩
      dsimp only
      cases ready : s.controller.notReady? with
      | some fault => exact next.respond Phase.noConfusion placed.laps placed.round placed.batches
      | none =>
          have staffed : c.workers ≠ [] := by
            rw [← orderly.logged.setUp.workers]
            exact Controller.staffed_of_ready ready
          cases command with
          | round =>
              exact next.beginRound Phase.noConfusion staffed placed.round placed.batches
                (fun _ _ impossible => by cases impossible) fun _ => placed.laps
          | run rounds =>
              refine ⟨next.logged.of_same_sent next.logged.setUp rfl rfl next.logged.follows
                next.logged.excused next.logged.right, fun _ => next.told Phase.noConfusion,
                ⟨staffed, placed.round, placed.batches, ?_⟩⟩
              rw [placed.laps]
              rfl

theorem Orderly.proceed_betweenRounds (orderly : Orderly c s) {rounds completed : Nat}
    (phase : s.phase = .betweenRounds rounds completed) : Orderly c s.proceed := by
  have moving : s.phase ≠ .stuck := by
    rw [phase]
    exact Phase.noConfusion
  have placed := orderly.placed
  rw [phase] at placed
  have answered : Orderly c (s.respond (.summary (s.controller.summary completed))) :=
    orderly.respond moving placed.tallied placed.round placed.batches
  rw [Campaign.proceed, phase]
  cases rounds with
  | zero => exact answered
  | succ rounds =>
      dsimp only
      split
      · exact answered
      · refine orderly.beginRound moving placed.staffed placed.round placed.batches ?_
          fun impossible => by cases impossible
        rintro _ _ ⟨⟩
        exact placed.tallied

theorem Orderly.proceed (orderly : Orderly c s) : Orderly c s.proceed := by
  cases phase : s.phase with
  | idle => exact orderly.proceed_idle phase
  | betweenRounds rounds completed => exact orderly.proceed_betweenRounds phase
  | inRound left series =>
      rw [Campaign.proceed, phase]
      cases left with
      | nil => exact orderly.endRound phase (fun _ => rfl) fun impossible => by cases impossible
      | cons batch left =>
          dsimp only
          split
          · rename_i halting
            exact orderly.endRound phase (fun impossible => by cases impossible) fun _ => halting
          · exact orderly.sendBatch phase
  | stuck =>
      rw [Campaign.proceed, phase]
      exact orderly

theorem Orderly.move (orderly : Orderly c s) (move : Move) : Orderly c (s.move move) := by
  cases move with
  | stop => exact orderly.stop
  | proceed => exact orderly.proceed

theorem Orderly.after (orderly : Orderly c s) (moves : List Move) : Orderly c (s.after moves) := by
  induction moves generalizing s with
  | nil => exact orderly
  | cons move moves induction => exact induction (orderly.move move)

theorem Orderly.outcome_ticks (orderly : Orderly c s) :
    (s.sent.flatMap (·.outcomes)).map (·.tick) =
      List.range (s.sent.flatMap (·.outcomes)).length := by
  obtain ⟨count, reported⟩ := orderly.logged.reported
  have length := congrArg List.length reported
  rw [List.length_map, List.length_range] at length
  rw [reported, length]

theorem Orderly.told_or_stuck (orderly : Orderly c s) {batch : Batch ω} (member : batch ∈ s.sent) :
    batch.Told ∨ s.phase = .stuck ∧ batch.outcomes = [] := by
  by_cases stuck : s.phase = .stuck
  · exact (orderly.logged.told batch member).imp_right fun nothing => ⟨stuck, nothing⟩
  · exact .inl (orderly.told stuck batch member)

variable (tasks : List Task) (workers : List (Worker ω)) (policy : Policy) (mode : Mode)
  (haltOnFailure : Bool) (world : ω) (commands : List Command)

theorem orderly_start :
    let c := Controller.assemble tasks workers policy mode haltOnFailure
    Orderly c (start c world commands) := by
  intro c
  have fresh : c = _ := Controller.assemble_eq tasks workers policy mode haltOnFailure
  refine ⟨⟨⟨rfl, rfl, rfl, rfl, ?_⟩, ?_, ⟨0, rfl⟩, nofun, nofun, nofun, nofun, nofun⟩, fun _ => nofun,
    ⟨?_, rfl, rfl⟩⟩
  all_goals
    rw [fresh]
    rfl

/-- Over all that a controller is told to do, stopped or not, the outcomes bear the ticks from 0 on, in
order. Each task that was sent was one call of its worker, and its outcome is what the call reported; a
campaign is stuck only over a call that gives nothing. A tick picks the worker, and no batch is empty,
too large or gives two tasks to one worker. A round that is not interrupted, as none is before the
controller halts, runs every task once, in the policy's order. Workers that always come back have all
commands answered. Performed in one go, the commands come to what they come to step by step: a round
each, or as many as a run is to perform unless the controller halts. -/
theorem schedule_kept (moves : List Move) :
    let c := Controller.assemble tasks workers policy mode haltOnFailure
    let s := (start c world commands).after moves
    let outcomes := s.sent.flatMap (·.outcomes)
    outcomes.map (·.tick) = List.range outcomes.length ∧
      (s.sent.flatMap (·.assignments)).map (·.tick) = List.range s.controller.tick ∧
      Accounted world s ∧
      (∀ batch ∈ s.sent,
        (batch.Told ∨ s.phase = .stuck ∧ batch.outcomes = []) ∧
          (∀ a ∈ batch.assignments, workers[a.tick % workers.length]? = some a.worker) ∧
          (batch.assignments.map fun a => a.tick % workers.length).Nodup ∧
          1 ≤ batch.assignments.length ∧
          batch.assignments.length ≤
            match mode with
            | .serial => 1
            | .parallel 0 => workers.length
            | .parallel maxConcurrent => min maxConcurrent workers.length) ∧
      (∀ lap ∈ s.ended, lap.interrupted = true → s.controller.shouldHalt = true) ∧
      (∀ rounds lap, s.ended[rounds]? = some lap → lap.interrupted = false →
        let order := policy.orderAfter tasks.length rounds
        order.Perm (List.range tasks.length) ∧
          lap.assignments.map (·.task) = order.filterMap (tasks[·]?) ∧
          lap.outcomes.map (·.heading) = lap.assignments.map (·.heading (rounds + 1))) ∧
      (∀ errand ∈ s.errands, ∀ outcomes, errand.answer = .outcomes outcomes →
        ∃ lap, errand.laps = [lap] ∧ outcomes = lap.outcomes) ∧
      ((∀ w ∈ workers, ∀ task world, (w.call task world).isSome) →
        (c.performAll world commands).isSome) ∧
      ∀ answers last world', c.performAll world commands = some (answers, last, world') →
        ∃ whole, Leads (start c world commands) whole ∧ whole.phase = .idle ∧ whole.commands = [] ∧
          whole.controller = last ∧ whole.world = world' ∧
          whole.errands.map (·.answer) = answers ∧
          (tasks ≠ [] → workers ≠ [] →
            List.Forall₂ (fun command errand => Errand.Fulfils last.shouldHalt errand command)
              commands whole.errands) := by
  intro c s outcomes
  have orderly : Orderly c s :=
    (orderly_start tasks workers policy mode haltOnFailure world commands).after moves
  have accounted : Accounted world s := (accounted_start c world commands).after moves
  have fresh : c = _ := Controller.assemble_eq tasks workers policy mode haltOnFailure
  have logged := orderly.logged
  refine ⟨orderly.outcome_ticks, logged.ticks, accounted, ?_, logged.excused, ?_, ?_, ?_, ?_⟩
  · intro batch member
    have proper := logged.proper batch member
    rw [fresh] at proper
    exact ⟨orderly.told_or_stuck member, proper.workers, proper.apart, proper.nonempty, proper.small⟩
  · intro rounds lap found notInterrupted order
    have follows := logged.follows rounds lap found
    have plan := follows.toTheEnd notInterrupted
    rw [fresh] at plan
    exact ⟨Policy.orderAfter_perm policy tasks.length rounds, plan, follows.headings⟩
  · intro errand member outcomes answer
    have right := logged.right errand member
    rwa [Errand.Right, answer] at right
  · intro returns
    refine Controller.performAll_isSome ?_ commands world
    rw [fresh]
    exact returns
  · intro answers last world' performed
    have comes : ComesTo (start c world commands) (c.performAll world commands) _ :=
      comesTo_performAll rfl rfl rfl
    rw [performed] at comes
    obtain ⟨whole, leads, ⟨phase, done⟩, controller, sameWorld, errands, made, answered, fulfilled⟩ :=
      comes
    have all : whole.errands = errands := made.trans (List.nil_append errands)
    refine ⟨whole, leads, phase, done, controller, sameWorld, all ▸ answered, ?_⟩
    intro someTask someWorker
    rw [all]
    refine fulfilled ?_
    change c.notReady? = none
    rw [fresh, Controller.notReady?]
    simp [someTask, someWorker, Controller.create]

-- The last batch of a round is short, and the next one starts with the worker after it.
example :
    let worker (id : String) : Worker Unit := ⟨id, fun _ world => some (⟨.ok .null, 0, false⟩, world)⟩
    let task (name : String) : Task := ⟨name, .ofClass "Task", "run", []⟩
    let c := Controller.assemble [task "a", task "b", task "c"] [worker "w0", worker "w1"]
      .roundRobin (.parallel 0) false
    ((start c () [.run 2]).after (.replicate 9 .proceed)).dispatched.map
        (·.map fun d => (d.round, d.tick, d.worker)) =
      [[(1, 0, "w0"), (1, 1, "w1")], [(1, 2, "w0")],
        [(2, 3, "w1"), (2, 4, "w0")], [(2, 5, "w1")]] := by
  decide +kernel

end Campaign

end Coordination
