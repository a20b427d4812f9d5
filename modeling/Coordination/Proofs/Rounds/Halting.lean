import Coordination.Proofs.Rounds.Campaign

/-!
A controller that is stopped, or halts on a failure, leaves off between two batches and never goes on.
Up to there it does step by step what it does when nothing ever fails or stops it.
-/

namespace Coordination

namespace Campaign

variable {ω ψ : Type} {s : Campaign ω}

/-! What a step does to the controller. -/

/-- What a step adds to the outcomes, and what the controller makes of it. -/
theorem proceed_outcomes (s : Campaign ω) :
    ∃ told, s.proceed.sent.flatMap (·.outcomes) = s.sent.flatMap (·.outcomes) ++ told ∧
      s.proceed.controller.haltOnFailure = s.controller.haltOnFailure ∧
      s.proceed.controller.halted =
        (s.controller.halted || told.any fun o => o.failed && s.controller.haltOnFailure) ∧
      s.proceed.controller.stopped =
        (s.controller.stopped || told.any (·.report.stopRequested)) := by
  rcases s.proceed_cases with ⟨same, -, -, round, policy, controller⟩ | ⟨batch, left, series, -, -, sends⟩
  · refine ⟨[], ?_⟩
    rw [same, controller]
    simp
  · rw [sends]
    rcases sendBatch_cases s batch left series with
      ⟨-, controller, rfl, result⟩ | ⟨outcomes, controller, world, ran, result⟩
    · refine ⟨[], ?_⟩
      rw [result, sent_append]
      simp
    · obtain ⟨-, records, failed, rfl⟩ := Controller.runBatch_spec ran
      refine ⟨outcomes, ?_⟩
      rw [result, sent_append, List.flatMap_append, List.flatMap_singleton]
      exact ⟨rfl, rfl, rfl, rfl⟩

theorem sent_prefix_proceed (s : Campaign ω) : s.sent <+: s.proceed.sent := by
  rcases s.proceed_cases with ⟨same, -⟩ | ⟨batch, left, series, -, -, sends⟩
  · exact ⟨[], by rw [List.append_nil, same]⟩
  · rw [sends]
    rcases sendBatch_cases s batch left series with ⟨-, _, -, result⟩ | ⟨_, _, _, -, result⟩
    · rw [result, sent_append]
      exact List.prefix_append _ _
    · rw [result, sent_append]
      exact List.prefix_append _ _

theorem Leads.sent_prefix {s' : Campaign ω} (leads : Leads s s') : s.sent <+: s'.sent := by
  obtain ⟨steps, rfl⟩ := leads
  induction steps generalizing s with
  | zero => exact List.prefix_rfl
  | succ steps induction => exact s.sent_prefix_proceed.trans induction

/-! Once halted, for ever. -/

theorem proceed_of_shouldHalt (halting : s.controller.shouldHalt = true) :
    s.proceed.sent = s.sent ∧ s.proceed.controller.shouldHalt = true := by
  rcases s.proceed_cases with ⟨same, -, -, round, policy, controller⟩ | ⟨_, _, _, -, going, -⟩
  · refine ⟨same, ?_⟩
    rw [controller]
    exact halting
  · rw [halting] at going
    cases going

theorem shouldHalt_stop (s : Campaign ω) : s.stop.controller.shouldHalt = true :=
  Bool.or_true _

theorem after_of_shouldHalt (halting : s.controller.shouldHalt = true) (moves : List Move) :
    (s.after moves).sent = s.sent ∧ (s.after moves).controller.shouldHalt = true := by
  induction moves generalizing s with
  | nil => exact ⟨rfl, halting⟩
  | cons move moves induction =>
      cases move with
      | stop => exact induction s.shouldHalt_stop
      | proceed =>
          obtain ⟨same, still⟩ := proceed_of_shouldHalt halting
          obtain ⟨sameLater, stillLater⟩ := induction still
          exact ⟨sameLater.trans same, stillLater⟩

theorem shouldHalt_after_stop {moves : List Move} (stopped : .stop ∈ moves) :
    (s.after moves).controller.shouldHalt = true := by
  obtain ⟨before, later, rfl⟩ := List.append_of_mem stopped
  rw [after_append]
  exact (after_of_shouldHalt (shouldHalt_stop _) later).2

/-! What is reported makes the controller halt. -/

/-- Nothing that was reported has gone unheeded. -/
structure Heeded (s : Campaign ω) : Prop where
  failures : ∀ o ∈ s.sent.flatMap (·.outcomes), o.failed = true →
    s.controller.haltOnFailure = true → s.controller.halted = true
  stops : ∀ o ∈ s.sent.flatMap (·.outcomes), o.report.stopRequested = true →
    s.controller.stopped = true

theorem Heeded.stop (heeded : Heeded s) : Heeded s.stop := ⟨heeded.failures, fun _ _ _ => rfl⟩

theorem Heeded.proceed (heeded : Heeded s) : Heeded s.proceed := by
  obtain ⟨told, outcomes, haltOnFailure, halted, stopped⟩ := s.proceed_outcomes
  refine ⟨?_, ?_⟩
  · rw [outcomes, haltOnFailure, halted]
    intro o member isFailed halts
    rcases List.mem_append.mp member with earlier | new
    · simp [heeded.failures o earlier isFailed halts]
    · have found : told.any (fun o => o.failed && s.controller.haltOnFailure) = true :=
        List.any_eq_true.mpr ⟨o, new, by rw [isFailed, halts]; rfl⟩
      simp [found]
  · rw [outcomes, stopped]
    intro o member requested
    rcases List.mem_append.mp member with earlier | new
    · simp [heeded.stops o earlier requested]
    · have found : told.any (·.report.stopRequested) = true :=
        List.any_eq_true.mpr ⟨o, new, requested⟩
      simp [found]

theorem Heeded.after (heeded : Heeded s) (moves : List Move) : Heeded (s.after moves) := by
  induction moves generalizing s with
  | nil => exact heeded
  | cons move moves induction =>
      cases move with
      | stop => exact induction heeded.stop
      | proceed => exact induction heeded.proceed

theorem Heeded.shouldHalt (heeded : Heeded s) {o : TaskOutcome}
    (member : o ∈ s.sent.flatMap (·.outcomes))
    (alarm : o.report.stopRequested = true ∨ s.controller.haltOnFailure = true ∧ o.failed = true) :
    s.controller.shouldHalt = true := by
  rcases alarm with requested | ⟨halts, isFailed⟩
  · simp [Controller.shouldHalt, heeded.stops o member requested]
  · simp [Controller.shouldHalt, heeded.failures o member isFailed halts]

/-! One task at a time, a failure is the last thing that is heard. -/

theorem pairwise_of_length_le_one {α : Type} {related : α → α → Prop} {items : List α}
    (short : items.length ≤ 1) : items.Pairwise related := by
  cases items with
  | nil => exact .nil
  | cons item items =>
      cases items with
      | nil => exact List.pairwise_singleton _ item
      | cons => simp at short

/-- Nothing is told after a failure. -/
def FailsLast (s : Campaign ω) : Prop :=
  (s.sent.flatMap (·.outcomes)).Pairwise fun earlier _ => earlier.failed = false

theorem FailsLast.proceed {c : Controller ω} (failsLast : FailsLast s) (heeded : Heeded s)
    (orderly : Orderly c s) (serial : c.mode = .serial) (halts : c.haltOnFailure = true) :
    FailsLast s.proceed := by
  have later := orderly.proceed.logged.proper
  have halts' : s.controller.haltOnFailure = true := orderly.logged.setUp.haltOnFailure ▸ halts
  rcases s.proceed_cases with ⟨same, -⟩ | ⟨batch, left, series, -, going, sends⟩
  · rw [FailsLast, same]
    exact failsLast
  · rw [sends] at later ⊢
    rw [FailsLast]
    rcases sendBatch_cases s batch left series with
      ⟨-, controller, kept, result⟩ | ⟨outcomes, controller, world, ran, result⟩
    · rw [result, sent_append, List.flatMap_append, List.flatMap_singleton, List.append_nil]
      exact failsLast
    · rw [result, sent_append] at later
      rw [result, sent_append, List.flatMap_append, List.flatMap_singleton]
      have proper := later _ (List.mem_append_right _ List.mem_cons_self)
      have told := congrArg List.length (Controller.runBatch_spec ran).1
      rw [List.length_map, List.length_map] at told
      have small : outcomes.length ≤ 1 := by
        have small := proper.small
        rw [Controller.batchSize, serial] at small
        exact told ▸ small
      refine List.pairwise_append.mpr ⟨failsLast, ?_, ?_⟩
      · exact pairwise_of_length_le_one small
      · -- An earlier failure would have kept this batch back.
        intro o member _ _
        cases isFailed : o.failed with
        | false => rfl
        | true =>
            have halting := heeded.shouldHalt member (.inr ⟨halts', isFailed⟩)
            rw [going] at halting
            cases halting

theorem FailsLast.split (failsLast : FailsLast s) {earlier later : List TaskOutcome} {o : TaskOutcome}
    (outcomes : s.sent.flatMap (·.outcomes) = earlier ++ o :: later) (isFailed : o.failed = true) :
    later = [] ∧ ∀ e ∈ earlier, e.failed = false := by
  rw [FailsLast, outcomes] at failsLast
  obtain ⟨-, fromHere, across⟩ := List.pairwise_append.mp failsLast
  refine ⟨?_, fun e member => across e member o List.mem_cons_self⟩
  cases later with
  | nil => rfl
  | cons next later =>
      have fine := (List.pairwise_cons.mp fromHere).1 next List.mem_cons_self
      rw [isFailed] at fine
      cases fine

/-! The same controller, undisturbed. -/

/-- The one plans what the other plans. -/
structure Alike (c : Controller ω) (c' : Controller ψ) : Prop where
  tasks : c'.tasks = c.tasks
  workers : c'.workers.map (·.id) = c.workers.map (·.id)
  policy : c'.policy = c.policy
  mode : c'.mode = c.mode
  round : c'.round = c.round
  tick : c'.tick = c.tick

section Alike

variable {c : Controller ω} {c' : Controller ψ}

theorem Alike.length_workers (alike : Alike c c') : c'.workers.length = c.workers.length := by
  have lengths := congrArg List.length alike.workers
  rwa [List.length_map, List.length_map] at lengths

theorem Alike.batchSize (alike : Alike c c') : c'.batchSize = c.batchSize := by
  rw [Controller.batchSize, Controller.batchSize, alike.mode, alike.length_workers]

theorem Alike.notReady? (alike : Alike c c') : c'.notReady? = c.notReady? := by
  have empty : c'.workers.isEmpty = c.workers.isEmpty := by
    rw [Bool.eq_iff_iff, List.isEmpty_iff_length_eq_zero, List.isEmpty_iff_length_eq_zero,
      alike.length_workers]
  rw [Controller.notReady?, Controller.notReady?, alike.tasks, empty]

theorem Alike.dispatches (alike : Alike c c') (batch : List Nat) (told : List TaskOutcome)
    (told' : List TaskOutcome) :
    Batch.dispatches ⟨c'.round, c'.assignments batch, told'⟩ =
      Batch.dispatches ⟨c.round, c.assignments batch, told⟩ := by
  have shown (tick index : Nat) :
      (c'.assign? tick index).map (fun a => (⟨c'.round, a.tick, a.task, a.worker.id⟩ : Dispatch)) =
        (c.assign? tick index).map fun a => ⟨c.round, a.tick, a.task, a.worker.id⟩ := by
    have ids (index : Nat) :
        c'.workers[index]?.map (·.id) = c.workers[index]?.map (·.id) := by
      rw [← List.getElem?_map, ← List.getElem?_map, alike.workers]
    have chosen := ids (tick % c.workers.length)
    rw [Controller.assign?, Controller.assign?, alike.tasks, alike.length_workers, alike.round]
    cases c.tasks[index]? with
    | none => rfl
    | some task =>
        cases found : c.workers[tick % c.workers.length]? with
        | none =>
            rw [found] at chosen
            rw [Option.map_eq_none_iff.mp chosen]
            rfl
        | some worker =>
            rw [found] at chosen
            obtain ⟨worker', found', sameId⟩ := Option.map_eq_some_iff.mp chosen
            rw [found']
            simp [sameId]
  simp only [Batch.dispatches, Controller.assignments, List.map_filterMap, shown, alike.tick]

end Alike

/-- The phase without the count of complete rounds, which decides nothing. -/
def Phase.course : Phase → Phase
  | .idle => .idle
  | .betweenRounds rounds _ => .betweenRounds rounds 0
  | .inRound left series => .inRound left (series.map fun (rounds, _) => (rounds, 0))
  | .stuck => .stuck

namespace Phase

variable {phase : Phase}

theorem eq_idle_of_course (same : phase.course = course .idle) : phase = .idle := by
  cases phase with
  | idle => rfl
  | betweenRounds | inRound | stuck => cases same

theorem eq_stuck_of_course (same : phase.course = course .stuck) : phase = .stuck := by
  cases phase with
  | stuck => rfl
  | idle | betweenRounds | inRound => cases same

theorem eq_betweenRounds_of_course {rounds completed : Nat}
    (same : phase.course = course (.betweenRounds rounds completed)) :
    ∃ completed', phase = .betweenRounds rounds completed' := by
  cases phase with
  | betweenRounds rounds' completed' =>
      cases same
      exact ⟨completed', rfl⟩
  | idle | inRound | stuck => cases same

theorem eq_inRound_of_course {left : List (List Nat)} {series : Option (Nat × Nat)}
    (same : phase.course = course (.inRound left series)) :
    ∃ series', phase = .inRound left series' ∧
      series'.map (fun (rounds, _) => (rounds, 0)) = series.map (fun (rounds, _) => (rounds, 0)) := by
  cases phase with
  | inRound left' series' =>
      obtain ⟨rfl, sameSeries⟩ := Phase.inRound.inj same
      exact ⟨series', rfl, sameSeries⟩
  | idle | betweenRounds | stuck => cases same

end Phase

structure InStep (s : Campaign ω) (s' : Campaign ψ) : Prop where
  controller : Alike s.controller s'.controller
  commands : s'.commands = s.commands
  phase : s'.phase.course = s.phase.course
  dispatched : s'.dispatched = s.dispatched

section InStep

variable {s' : Campaign ψ}

theorem InStep.respond (inStep : InStep s s') (answer answer' : Answer) :
    InStep (s.respond answer) (s'.respond answer') := by
  refine ⟨inStep.controller, inStep.commands, rfl, ?_⟩
  rw [Campaign.dispatched, Campaign.dispatched, sent_respond, sent_respond]
  exact inStep.dispatched

theorem InStep.beginRound (inStep : InStep s s') {series series' : Option (Nat × Nat)}
    (sameSeries : series'.map (fun (rounds, _) => (rounds, 0)) =
      series.map (fun (rounds, _) => (rounds, 0))) :
    InStep (s.beginRound series) (s'.beginRound series') := by
  obtain ⟨tasks, workers, policy, mode, round, tick⟩ := inStep.controller
  have order : s'.controller.policy.order s'.controller.tasks.length =
      s.controller.policy.order s.controller.tasks.length := by
    rw [policy, tasks]
  refine ⟨⟨tasks, workers, congrArg Prod.snd order, mode, congrArg (· + 1) round, tick⟩,
    inStep.commands, ?_, inStep.dispatched⟩
  simp only [Campaign.beginRound, Phase.course, order, inStep.controller.batchSize, sameSeries]

theorem InStep.endRound (inStep : InStep s s') (interrupted : Bool)
    {series series' : Option (Nat × Nat)}
    (sameSeries : series'.map (fun (rounds, _) => (rounds, 0)) =
      series.map (fun (rounds, _) => (rounds, 0))) :
    InStep (s.endRound interrupted series) (s'.endRound interrupted series') := by
  have dispatched : (s'.endRound interrupted series').dispatched =
      (s.endRound interrupted series).dispatched := by
    rw [Campaign.dispatched, Campaign.dispatched, sent_endRound, sent_endRound]
    exact inStep.dispatched
  match series, series' with
  | none, none => exact ⟨inStep.controller, inStep.commands, rfl, dispatched⟩
  | some (rounds, completed), some (rounds', completed') =>
      cases sameSeries
      exact ⟨inStep.controller, inStep.commands, rfl, dispatched⟩

end InStep

structure Calm (s : Campaign ω) : Prop where
  workers : ∀ w ∈ s.controller.workers, w.Untroubled
  going : s.controller.shouldHalt = false

theorem runAssignments_calm {sent : List (Controller.Assignment ω)}
    (untroubled : ∀ a ∈ sent, a.worker.Untroubled) (round : Nat) (world : ω) :
    ∃ outcomes after, Controller.runAssignments round sent world = some (outcomes, after) ∧
      ∀ o ∈ outcomes, o.failed = false ∧ o.report.stopRequested = false := by
  induction sent generalizing world with
  | nil => exact ⟨[], world, rfl, nofun⟩
  | cons a sent induction =>
      obtain ⟨first, others⟩ := List.forall_mem_cons.mp untroubled
      obtain ⟨v, elapsedNs, between, called⟩ := first a.task world
      obtain ⟨later, last, ran, calm⟩ := induction others between
      refine ⟨_ :: later, last, by simp [Controller.runAssignments, called, ran]; rfl, ?_⟩
      exact List.forall_mem_cons.mpr ⟨⟨rfl, rfl⟩, calm⟩

/-- A calm campaign is not stuck over a batch, and it is calm afterwards. -/
theorem Calm.runBatch (calm : Calm s) (batch : List Nat) :
    ∃ outcomes controller world, s.controller.runBatch batch s.world =
        some (outcomes, controller, world) ∧
      (∀ w ∈ controller.workers, w.Untroubled) ∧ controller.shouldHalt = false := by
  have untroubled : ∀ a ∈ s.controller.assignments batch, a.worker.Untroubled := fun a member =>
    calm.workers a.worker (Controller.worker_mem_of_mem_assignments member)
  obtain ⟨outcomes, world, ran, fine⟩ := runAssignments_calm untroubled s.controller.round s.world
  obtain ⟨controller, ranBatch⟩ :
      ∃ controller, s.controller.runBatch batch s.world = some (outcomes, controller, world) :=
    ⟨_, by rw [Controller.runBatch, ran]; rfl⟩
  obtain ⟨-, records, failed, recorded⟩ := Controller.runBatch_spec ranBatch
  refine ⟨outcomes, controller, world, ranBatch, ?_, ?_⟩
  · rw [recorded]
    exact calm.workers
  · have going := calm.going
    rw [Controller.shouldHalt, Bool.or_eq_false_iff] at going
    have noFailure : outcomes.any (fun o => o.failed && s.controller.haltOnFailure) = false :=
      List.any_eq_false.mpr fun o member => by simp [(fine o member).1]
    have noStop : outcomes.any (·.report.stopRequested) = false :=
      List.any_eq_false.mpr fun o member => by simp [(fine o member).2]
    rw [recorded, Controller.shouldHalt, going.1, going.2, noFailure, noStop]
    rfl

theorem Calm.proceed (calm : Calm s) : Calm s.proceed := by
  rcases s.proceed_cases with ⟨-, -, -, round, policy, controller⟩ | ⟨batch, left, series, -, -, sends⟩
  · exact ⟨controller ▸ calm.workers, controller ▸ calm.going⟩
  · obtain ⟨outcomes, controller, world, ran, workers, going⟩ := calm.runBatch batch
    rw [sends, sendBatch, ran]
    exact ⟨workers, going⟩

theorem InStep.sendBatch {s' : Campaign ψ} (inStep : InStep s s') (calm : Calm s')
    (batch : List Nat) (left : List (List Nat)) {series series' : Option (Nat × Nat)}
    (sameSeries : series'.map (fun (rounds, _) => (rounds, 0)) =
      series.map (fun (rounds, _) => (rounds, 0))) :
    (s'.sendBatch batch left series').dispatched = (s.sendBatch batch left series).dispatched ∧
      ((s.sendBatch batch left series).phase = .stuck ∨
        InStep (s.sendBatch batch left series) (s'.sendBatch batch left series')) := by
  have alike := inStep.controller
  obtain ⟨outcomes', controller', world', ran', -, -⟩ := calm.runBatch batch
  obtain ⟨-, records', failed', recorded'⟩ := Controller.runBatch_spec ran'
  have result' : s'.sendBatch batch left series' = { s' with
      controller := controller'
      world := world'
      phase := .inRound left series'
      batches := s'.batches ++
        [⟨s'.controller.round, s'.controller.assignments batch, outcomes'⟩] } := by
    rw [Campaign.sendBatch, ran']
  have same (told : List TaskOutcome) :
      (s'.sendBatch batch left series').dispatched =
        s.dispatched ++ [Batch.dispatches ⟨s.controller.round, s.controller.assignments batch, told⟩] := by
    rw [result', Campaign.dispatched, sent_append, List.map_append, List.map_singleton,
      alike.dispatches batch told]
    exact congrArg (· ++ _) inStep.dispatched
  rcases sendBatch_cases s batch left series with
    ⟨-, controller, -, result⟩ | ⟨outcomes, controller, world, ran, result⟩
  · -- Stuck over the batch, `s` has still sent what `s'` sends.
    have dispatched : (s'.sendBatch batch left series').dispatched =
        (s.sendBatch batch left series).dispatched := by
      rw [same [], result, Campaign.dispatched, Campaign.dispatched, sent_append, List.map_append]
      rfl
    exact ⟨dispatched, .inl (by rw [result])⟩
  · obtain ⟨-, records, failed, recorded⟩ := Controller.runBatch_spec ran
    have dispatched : (s'.sendBatch batch left series').dispatched =
        (s.sendBatch batch left series).dispatched := by
      rw [same outcomes, result, Campaign.dispatched, Campaign.dispatched, sent_append,
        List.map_append]
      rfl
    refine ⟨dispatched, .inr ⟨?_, ?_, ?_, dispatched⟩⟩
    · rw [result, result', recorded, recorded']
      exact ⟨alike.tasks, alike.workers, alike.policy, alike.mode, alike.round,
        congrArg (· + batch.length) alike.tick⟩
    · rw [result, result']
      exact inStep.commands
    · rw [result, result']
      simp only [Phase.course, sameSeries]

theorem InStep.proceed {s' : Campaign ψ} (inStep : InStep s s') (calm : Calm s')
    (going : s.controller.shouldHalt = false) :
    s'.proceed.dispatched = s.proceed.dispatched ∧
      (s.proceed.phase = .stuck ∨ InStep s.proceed s'.proceed) := by
  have both (step : InStep s.proceed s'.proceed) :
      s'.proceed.dispatched = s.proceed.dispatched ∧
        (s.proceed.phase = .stuck ∨ InStep s.proceed s'.proceed) := ⟨step.dispatched, .inr step⟩
  have course := inStep.phase
  cases phase : s.phase with
  | stuck =>
      rw [phase] at course
      have phase' := Phase.eq_stuck_of_course course
      refine both ?_
      rw [Campaign.proceed, phase, Campaign.proceed, phase']
      exact inStep
  | idle =>
      rw [phase] at course
      have phase' := Phase.eq_idle_of_course course
      refine both ?_
      rw [Campaign.proceed, phase, Campaign.proceed, phase', inStep.commands]
      cases s.commands with
      | nil => exact inStep
      | cons command commands =>
          have next : InStep { s with phase := .idle, commands } { s' with phase := .idle, commands } :=
            ⟨inStep.controller, rfl, rfl, inStep.dispatched⟩
          dsimp only
          rw [inStep.controller.notReady?]
          cases s.controller.notReady? with
          | some fault => exact next.respond _ _
          | none =>
              cases command with
              | round => exact next.beginRound rfl
              | run rounds => exact ⟨inStep.controller, rfl, rfl, inStep.dispatched⟩
  | betweenRounds rounds completed =>
      rw [phase] at course
      obtain ⟨completed', phase'⟩ := Phase.eq_betweenRounds_of_course course
      refine both ?_
      rw [Campaign.proceed, phase, Campaign.proceed, phase']
      cases rounds with
      | zero => exact inStep.respond _ _
      | succ rounds =>
          dsimp only
          rw [going, calm.going]
          exact inStep.beginRound rfl
  | inRound left series =>
      rw [phase] at course
      obtain ⟨series', phase', sameSeries⟩ := Phase.eq_inRound_of_course course
      cases left with
      | nil =>
          refine both ?_
          rw [proceed_of_through phase, proceed_of_through phase']
          exact inStep.endRound false sameSeries
      | cons batch left =>
          rw [proceed_of_going phase going, proceed_of_going phase' calm.going]
          exact inStep.sendBatch calm batch left sameSeries

/-- The one has dispatched what the other has; it is held up, or both go on alike. -/
structure Shadowed (s : Campaign ω) (s' : Campaign ψ) : Prop where
  calm : Calm s'
  dispatched : s'.dispatched = s.dispatched
  goesOn : s.phase = .stuck ∨ s.controller.shouldHalt = true ∨ InStep s s'

theorem Shadowed.move {s' : Campaign ψ} (shadowed : Shadowed s s') (move : Move) :
    ∃ s'', Leads s' s'' ∧ Shadowed (s.move move) s'' := by
  obtain ⟨calm, dispatched, goesOn⟩ := shadowed
  cases move with
  | stop => exact ⟨s', .refl s', calm, dispatched, .inr (.inl s.shouldHalt_stop)⟩
  | proceed =>
      rcases goesOn with stuck | goesOn
      · have stays : s.move .proceed = s := by
          rw [Campaign.move, Campaign.proceed, stuck]
        rw [stays]
        exact ⟨s', .refl s', calm, dispatched, .inl stuck⟩
      · cases halting : s.controller.shouldHalt with
        | true =>
            obtain ⟨same, still⟩ := proceed_of_shouldHalt halting
            refine ⟨s', .refl s', calm, ?_, .inr (.inl still)⟩
            rw [dispatched]
            exact congrArg (List.map _) same.symm
        | false =>
            have inStep := goesOn.resolve_left (by rw [halting]; exact Bool.false_ne_true)
            obtain ⟨same, onward⟩ := inStep.proceed calm halting
            exact ⟨s'.proceed, .step (.refl _), calm.proceed, same, onward.imp_right .inr⟩

theorem Shadowed.after {s' : Campaign ψ} (shadowed : Shadowed s s') (moves : List Move) :
    ∃ s'', Leads s' s'' ∧ Shadowed (s.after moves) s'' := by
  induction moves generalizing s s' with
  | nil => exact ⟨s', .refl s', shadowed⟩
  | cons move moves induction =>
      obtain ⟨middle, leads, shadowedThere⟩ := shadowed.move move
      obtain ⟨last, leadsOn, shadowedLast⟩ := induction shadowedThere
      exact ⟨last, leads.trans leadsOn, shadowedLast⟩

theorem shadowed_start {c : Controller ω} {c' : Controller ψ} (alike : Alike c c')
    (untroubled : ∀ w ∈ c'.workers, w.Untroubled) (going : c'.shouldHalt = false) (world : ω)
    (world' : ψ) (commands : List Command) :
    Shadowed (start c world commands) (start c' world' commands) :=
  ⟨⟨untroubled, going⟩, rfl, .inr (.inr ⟨alike, rfl, rfl, rfl⟩)⟩

/-- Whatever happens, what has been dispatched is the beginning of what is dispatched if all goes
well. -/
theorem dispatched_prefix {c : Controller ω} {c' : Controller ψ} (alike : Alike c c')
    (untroubled : ∀ w ∈ c'.workers, w.Untroubled) (going : c'.shouldHalt = false) (world : ω)
    (world' : ψ) (commands : List Command) (moves : List Move) :
    ∃ whole, Leads (start c' world' commands) whole ∧ whole.phase = .idle ∧ whole.commands = [] ∧
      ((start c world commands).after moves).dispatched <+: whole.dispatched := by
  have returns : c'.Returns := by
    intro w member task world
    obtain ⟨v, elapsedNs, last, called⟩ := untroubled w member task world
    rw [called]
    rfl
  obtain ⟨whole, leads, phase, done⟩ :=
    leads_finished (s := start c' world' commands) returns rfl rfl rfl
  obtain ⟨reached, leads', -, dispatched, -⟩ :=
    (shadowed_start alike untroubled going world world' commands).after moves
  refine ⟨whole, leads, phase, done, ?_⟩
  rw [← dispatched]
  -- Both are on the same way, and the one that has come to its end goes no further.
  rcases leads'.total leads with onward | back
  · exact onward.sent_prefix.map _
  · exact ⟨[], by rw [List.append_nil, back.eq_of_finished phase done]⟩

/-! Complete rounds. -/

theorem Lap.Follows.complete_iff {c : Controller ω} {rounds : Nat} {lap : Lap ω}
    (follows : lap.Follows c rounds) :
    lap.outcomes.length = c.tasks.length ↔ lap.complete c.tasks = true := by
  have told := congrArg List.length follows.headings
  rw [List.length_map, List.length_map] at told
  have perm := planned_perm c rounds
  rw [told, Lap.complete, decide_eq_true_eq]
  constructor
  · intro length
    have whole : lap.assignments.map (·.task) = planned c rounds :=
      follows.inOrder.eq_of_length (by rw [List.length_map, length, perm.length_eq])
    rw [whole]
    exact perm
  · intro everyTask
    rw [← everyTask.length_eq, List.length_map]

theorem Orderly.roundsCompleted {c : Controller ω} (orderly : Orderly c s) {errand : Errand ω}
    (member : errand ∈ s.errands) {summary : RunSummary} (answer : errand.answer = .summary summary) :
    summary.roundsCompleted = errand.laps.countP (·.complete c.tasks) := by
  have right := orderly.logged.right errand member
  rw [Errand.Right, answer] at right
  rw [right]
  refine List.countP_congr ?_
  intro lap inErrand
  have ended : lap ∈ s.ended :=
    List.mem_append_left _ (List.mem_flatMap_of_mem member inErrand)
  obtain ⟨rounds, found⟩ := List.getElem?_of_mem ended
  rw [decide_eq_true_eq]
  exact (orderly.logged.follows rounds lap found).complete_iff

theorem heeded_start (c : Controller ω) (world : ω) (commands : List Command) :
    Heeded (start c world commands) := ⟨nofun, nofun⟩

theorem failsLast_after {c : Controller ω} (serial : c.mode = .serial)
    (halts : c.haltOnFailure = true) (orderly : Orderly c s) (heeded : Heeded s)
    (failsLast : FailsLast s) (moves : List Move) : FailsLast (s.after moves) := by
  induction moves generalizing s with
  | nil => exact failsLast
  | cons move moves induction =>
      cases move with
      | stop => exact induction orderly.stop heeded.stop failsLast
      | proceed =>
          exact induction orderly.proceed heeded.proceed
            (failsLast.proceed heeded orderly serial halts)

/-- What is dispatched, stopped or halted at any time, is what would be dispatched if nothing ever
failed or stopped, up to the end of a batch. After a stop, or a failure that halts, nothing more is
dispatched, by no later command either; one task at a time, such a failure is the last outcome and the
only one. A run counts the rounds all of whose tasks were dispatched. -/
theorem halting_cuts_short (tasks : List Task) (workers : List (Worker ω)) (policy : Policy)
    (mode : Mode) (haltOnFailure : Bool) (world : ω) (commands : List Command) (moves : List Move) :
    let c := Controller.assemble tasks workers policy mode haltOnFailure
    let s := (start c world commands).after moves
    let outcomes := s.sent.flatMap (·.outcomes)
    (∀ (ψ : Type) (workers' : List (Worker ψ)) (world' : ψ),
      workers'.map (·.id) = workers.map (·.id) → (∀ w ∈ workers', w.Untroubled) →
      let c' := Controller.assemble tasks workers' policy mode haltOnFailure
      ∃ whole, Leads (start c' world' commands) whole ∧ whole.phase = .idle ∧
        whole.commands = [] ∧ s.dispatched <+: whole.dispatched) ∧
      ((.stop ∈ moves ∨ ∃ o ∈ outcomes, o.report.stopRequested = true ∨
          haltOnFailure = true ∧ o.failed = true) →
        ∀ more, (s.after more).sent = s.sent) ∧
      (haltOnFailure = true → mode = .serial → ∀ earlier o later,
        outcomes = earlier ++ o :: later → o.failed = true →
          later = [] ∧ ∀ e ∈ earlier, e.failed = false) ∧
      ∀ errand ∈ s.errands, ∀ summary, errand.answer = .summary summary →
        summary.roundsCompleted = errand.laps.countP (·.complete tasks) := by
  intro c s outcomes
  have first : Orderly c (start c world commands) :=
    orderly_start tasks workers policy mode haltOnFailure world commands
  have orderly : Orderly c s := first.after moves
  have heeded : Heeded s := (heeded_start c world commands).after moves
  have fresh : c = _ := Controller.assemble_eq tasks workers policy mode haltOnFailure
  refine ⟨?_, ?_, ?_, ?_⟩
  · intro ψ workers' world' sameWorkers untroubled c'
    have fresh' : c' = _ := Controller.assemble_eq tasks workers' policy mode haltOnFailure
    have alike : Alike c c' := by
      rw [fresh, fresh']
      exact ⟨rfl, sameWorkers, rfl, rfl, rfl, rfl⟩
    refine dispatched_prefix alike ?_ ?_ world world' commands moves
    · rw [fresh']
      exact untroubled
    · rw [fresh']
      rfl
  · intro alarm more
    refine (after_of_shouldHalt ?_ more).1
    rcases alarm with stopped | ⟨o, member, reported⟩
    · exact shouldHalt_after_stop stopped
    · refine heeded.shouldHalt member ?_
      rw [orderly.logged.setUp.haltOnFailure, fresh]
      exact reported
  · intro halts serial earlier o later split isFailed
    have serial' : c.mode = .serial := by
      rw [fresh]
      exact serial
    have halts' : c.haltOnFailure = true := by
      rw [fresh]
      exact halts
    have failsLast : FailsLast s :=
      failsLast_after serial' halts' first (heeded_start c world commands) .nil moves
    exact failsLast.split split isFailed
  · intro errand member summary answer
    have completed := orderly.roundsCompleted member answer
    rwa [fresh] at completed

end Campaign

end Coordination
