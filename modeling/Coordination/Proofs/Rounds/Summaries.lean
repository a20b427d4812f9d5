import Coordination.Proofs.Rounds.Halting
import Coordination.Proofs.Rounds.Tallies

/-!
What the summary of a run tells. It counts all that its controller has sent since it was set up, once
each; what the run itself has sent is all of that only if nothing had been sent before.
-/

namespace Coordination

namespace Campaign

variable {ω : Type} {s : Campaign ω} {c : Controller ω} {commands : List Command}

/-! Records. -/

/-- The controller has recorded all that was reported. -/
def Recorded (s : Campaign ω) : Prop := s.controller.Tallied (s.sent.flatMap (·.outcomes))

theorem Recorded.stop (recorded : Recorded s) : Recorded s.stop :=
  Controller.Tallied.of_same recorded rfl rfl

theorem Recorded.proceed (recorded : Recorded s) : Recorded s.proceed := by
  rcases s.proceed_cases with ⟨same, -, -, round, policy, controller⟩ | ⟨batch, left, series, -, -, sends⟩
  · rw [Recorded, same, controller]
    exact Controller.Tallied.of_same recorded rfl rfl
  · rw [sends, Recorded]
    rcases sendBatch_cases s batch left series with
      ⟨-, controller, rfl, result⟩ | ⟨outcomes, controller, world, ran, result⟩
    · rw [result, sent_append, List.flatMap_append, List.flatMap_singleton, List.append_nil]
      exact Controller.Tallied.of_same recorded rfl rfl
    · rw [result, sent_append, List.flatMap_append, List.flatMap_singleton]
      exact Controller.Tallied.runBatch recorded ran

theorem Recorded.after (recorded : Recorded s) (moves : List Move) : Recorded (s.after moves) := by
  induction moves generalizing s with
  | nil => exact recorded
  | cons move moves induction =>
      cases move with
      | stop => exact induction recorded.stop
      | proceed => exact induction recorded.proceed

/-! Answers. -/

def Answer.summary? : Answer → Option RunSummary
  | .summary told => some told
  | .refused _ | .outcomes _ => none

theorem Answer.eq_of_summary? {answer : Answer} {told : RunSummary}
    (found : answer.summary? = some told) : answer = .summary told := by
  cases answer with
  | summary => exact congrArg Answer.summary (Option.some.inj found)
  | refused | outcomes => cases found

theorem exists_summary {place : Nat}
    (answered : (s.errands[place]?.bind (·.answer.summary?)).isSome = true) :
    ∃ errand summary, s.errands[place]? = some errand ∧ errand.answer = .summary summary ∧
      s.errands[place]?.bind (·.answer.summary?) = some summary := by
  obtain ⟨summary, found⟩ := Option.isSome_iff_exists.mp answered
  obtain ⟨errand, here, isSummary⟩ := Option.bind_eq_some_iff.mp found
  exact ⟨errand, summary, here, Answer.eq_of_summary? isSummary, found⟩

/-- The command that is under way in a phase, after this many rounds of it. -/
def Phase.underWay (laps : Nat) : Phase → List Command
  | .idle | .stuck => []
  | .betweenRounds rounds _ => [.run (laps + rounds)]
  | .inRound _ none => [.round]
  | .inRound _ (some (rounds, _)) => [.run (laps + 1 + rounds)]

/-- The commands that are not answered yet. -/
def unanswered (s : Campaign ω) : List Command := s.phase.underWay s.laps.length ++ s.commands

/-- What a step answers: nothing, a command that is no run or is refused, or a run that has been through
all its rounds or is to halt. -/
inductive Answers (s s' : Campaign ω) : Prop
  | nothing (errands : s'.errands = s.errands)
      (unanswered : s'.phase ≠ .stuck → s.phase ≠ .stuck ∧ s.unanswered = s'.unanswered)
  | noSummary (command : Command) (errand : Errand ω) (errands : s'.errands = s.errands ++ [errand])
      (noSummary : ∀ summary, errand.answer ≠ .summary summary) (going : s.phase ≠ .stuck)
      (unanswered : s.unanswered = command :: s'.unanswered)
  | summary (rounds completed : Nat) (phase : s.phase = .betweenRounds rounds completed)
      (through : rounds = 0 ∨ s.controller.shouldHalt = true)
      (errands : s'.errands =
        s.errands ++ [⟨s.laps, .summary (s.controller.summary completed)⟩])
      (unanswered : s.unanswered = .run (s.laps.length + rounds) :: s'.unanswered)

theorem answers_summary {rounds completed : Nat} (phase : s.phase = .betweenRounds rounds completed)
    (through : rounds = 0 ∨ s.controller.shouldHalt = true) :
    Answers s (s.respond (.summary (s.controller.summary completed))) := by
  refine .summary rounds completed phase through rfl ?_
  rw [unanswered, phase]
  rfl

theorem answers_endRound {left : List (List Nat)} {series : Option (Nat × Nat)}
    (phase : s.phase = .inRound left series) (interrupted : Bool) :
    Answers s (s.endRound interrupted series) := by
  have going : s.phase ≠ .stuck := by
    rw [phase]
    exact Phase.noConfusion
  cases series with
  | none =>
      refine .noSummary .round _ rfl nofun going ?_
      rw [unanswered, phase]
      rfl
  | some series =>
      refine .nothing rfl fun _ => ⟨going, ?_⟩
      rw [unanswered, phase, endRound_some, unanswered, Phase.underWay, Phase.underWay,
        List.length_append, List.length_singleton]

theorem answers_sendBatch {batch : List Nat} {left : List (List Nat)} {series : Option (Nat × Nat)}
    (phase : s.phase = .inRound (batch :: left) series) : Answers s (s.sendBatch batch left series) := by
  have going : s.phase ≠ .stuck := by
    rw [phase]
    exact Phase.noConfusion
  rcases sendBatch_cases s batch left series with ⟨-, _, -, result⟩ | ⟨_, _, _, -, result⟩
  · rw [result]
    exact .nothing rfl fun moving => absurd rfl moving
  · rw [result]
    refine .nothing rfl fun _ => ⟨going, ?_⟩
    rw [unanswered, phase]
    cases series <;> rfl

theorem Orderly.answers_proceed (orderly : Orderly c s) : Answers s s.proceed := by
  have placed := orderly.placed
  cases phase : s.phase with
  | stuck =>
      rw [Campaign.proceed, phase]
      exact .nothing rfl fun moving => absurd phase moving
  | idle =>
      have going : s.phase ≠ .stuck := by
        rw [phase]
        exact Phase.noConfusion
      rw [Campaign.proceed, phase]
      rw [phase] at placed
      cases waiting : s.commands with
      | nil => exact .nothing rfl fun _ => ⟨going, rfl⟩
      | cons command commands =>
          have next : s.unanswered = command :: commands := by
            rw [unanswered, phase, waiting]
            rfl
          dsimp only
          cases s.controller.notReady? with
          | some fault => exact .noSummary command _ rfl (fun _ same => Answer.noConfusion same) going next
          | none =>
              cases command with
              | round => exact .nothing rfl fun _ => ⟨going, next⟩
              | run rounds =>
                  refine .nothing rfl fun _ => ⟨going, ?_⟩
                  rw [next, unanswered, Phase.underWay, placed.laps, List.length_nil, Nat.zero_add]
                  rfl
  | betweenRounds rounds completed =>
      rw [Campaign.proceed, phase]
      cases rounds with
      | zero => exact answers_summary phase (.inl rfl)
      | succ rounds =>
          dsimp only
          split
          · rename_i halting
            exact answers_summary phase (.inr halting)
          · have going : s.phase ≠ .stuck := by
              rw [phase]
              exact Phase.noConfusion
            refine .nothing rfl fun _ => ⟨going, ?_⟩
            have later : (s.beginRound (some (rounds, completed))).unanswered =
                .run (s.laps.length + 1 + rounds) :: s.commands := rfl
            rw [later, unanswered, phase, Nat.add_assoc, Nat.add_comm 1]
            rfl
  | inRound left series =>
      cases left with
      | nil =>
          rw [proceed_of_through phase]
          exact answers_endRound phase false
      | cons batch left =>
          cases halting : s.controller.shouldHalt with
          | true =>
              rw [proceed_of_halting phase halting]
              exact answers_endRound phase true
          | false =>
              rw [proceed_of_going phase halting]
              exact answers_sendBatch phase

theorem Answers.errands_cases {s' : Campaign ω} (answers : Answers s s') :
    s'.errands = s.errands ∨ ∃ errand, s'.errands = s.errands ++ [errand] := by
  cases answers with
  | nothing errands => exact .inl errands
  | noSummary _ errand errands => exact .inr ⟨errand, errands⟩
  | summary _ _ _ _ errands => exact .inr ⟨_, errands⟩

theorem Orderly.errands_prefix (orderly : Orderly c s) (moves : List Move) :
    s.errands <+: (s.after moves).errands := by
  induction moves generalizing s with
  | nil => exact List.prefix_rfl
  | cons move moves induction =>
      cases move with
      | stop => exact induction orderly.stop
      | proceed =>
          refine List.IsPrefix.trans ?_ (induction orderly.proceed)
          rcases orderly.answers_proceed.errands_cases with same | ⟨errand, errands⟩
          · exact same ▸ List.prefix_rfl
          · exact errands ▸ List.prefix_append _ _

/-- Every answer is given by a step. -/
theorem Orderly.answered_at (orderly : Orderly c s) {moves : List Move} {place : Nat}
    {errand : Errand ω} (found : (s.after moves).errands[place]? = some errand)
    (new : s.errands.length ≤ place) :
    ∃ before later, moves = before ++ .proceed :: later ∧
      (s.after before).errands.length = place ∧
      (s.after before).proceed.errands = (s.after before).errands ++ [errand] := by
  induction moves generalizing s with
  | nil =>
      obtain ⟨inside, -⟩ := List.getElem?_eq_some_iff.mp found
      exact absurd inside (Nat.not_lt.mpr new)
  | cons move moves induction =>
      have later (next : Orderly c (s.move move)) (new : (s.move move).errands.length ≤ place) :
          ∃ before later, move :: moves = before ++ .proceed :: later ∧
            (s.after before).errands.length = place ∧
            (s.after before).proceed.errands = (s.after before).errands ++ [errand] := by
        obtain ⟨before, later, rfl, length, answered⟩ := induction next found new
        exact ⟨move :: before, later, rfl, length, answered⟩
      cases move with
      | stop => exact later orderly.stop new
      | proceed =>
          rcases orderly.answers_proceed.errands_cases with same | ⟨first, errands⟩
          · exact later orderly.proceed (same.symm ▸ new)
          · by_cases here : s.errands.length = place
            · have kept := orderly.proceed.errands_prefix moves
              rw [errands] at kept
              obtain ⟨others, whole⟩ := kept
              change (s.proceed.after moves).errands[place]? = some errand at found
              rw [← whole, ← here, List.append_assoc, List.getElem?_append_right (Nat.le_refl _),
                Nat.sub_self, List.singleton_append, List.getElem?_cons_zero] at found
              cases found
              exact ⟨[], moves, rfl, here, errands⟩
            · refine later orderly.proceed ?_
              change s.proceed.errands.length ≤ place
              rw [errands, List.length_append, List.length_singleton]
              omega

/-- The commands are answered one after the other. -/
def Listed (commands : List Command) (s : Campaign ω) : Prop :=
  s.phase ≠ .stuck → commands.drop s.errands.length = s.unanswered

theorem Listed.proceed (listed : Listed commands s) (answers : Answers s s.proceed) :
    Listed commands s.proceed := by
  have next {command : Command} {errand : Errand ω} (going : s.phase ≠ .stuck)
      (errands : s.proceed.errands = s.errands ++ [errand])
      (first : s.unanswered = command :: s.proceed.unanswered) :
      commands.drop s.proceed.errands.length = s.proceed.unanswered := by
    rw [errands, List.length_append, List.length_singleton, ← List.drop_drop, listed going, first]
    rfl
  intro moving
  cases answers with
  | nothing errands unanswered =>
      obtain ⟨going, same⟩ := unanswered moving
      rw [errands, ← same]
      exact listed going
  | noSummary _ _ errands _ going first => exact next going errands first
  | summary _ _ phase _ errands first =>
      refine next ?_ errands first
      rw [phase]
      exact Phase.noConfusion

theorem Listed.after (listed : Listed commands s) (orderly : Orderly c s) (moves : List Move) :
    Listed commands (s.after moves) := by
  induction moves generalizing s with
  | nil => exact listed
  | cons move moves induction =>
      cases move with
      | stop => exact induction (s := s.stop) listed orderly.stop
      | proceed => exact induction (listed.proceed orderly.answers_proceed) orderly.proceed

/-- Between two rounds of a run, the run is the next command to be answered. -/
theorem Listed.command {rounds completed : Nat} (listed : Listed commands s)
    (phase : s.phase = .betweenRounds rounds completed) :
    commands[s.errands.length]? = some (.run (s.laps.length + rounds)) := by
  have moving : s.phase ≠ .stuck := by
    rw [phase]
    exact Phase.noConfusion
  have next := listed moving
  rw [unanswered, phase] at next
  have first := congrArg (·[0]?) next
  simp only [List.getElem?_drop, Nat.add_zero] at first
  exact first

/-! Why a controller is to halt. -/

theorem outcomes_subset_after (s : Campaign ω) (moves : List Move) :
    s.sent.flatMap (·.outcomes) ⊆ (s.after moves).sent.flatMap (·.outcomes) := by
  induction moves generalizing s with
  | nil => exact List.Subset.refl _
  | cons move moves induction =>
      cases move with
      | stop => exact induction s.stop
      | proceed =>
          obtain ⟨told, outcomes, -⟩ := s.proceed_outcomes
          refine List.Subset.trans ?_ (induction s.proceed)
          rw [outcomes]
          exact List.subset_append_left _ _

/-- Asks for a stop, or is a failure that halts. -/
def Alarms (haltOnFailure : Bool) (o : TaskOutcome) : Prop :=
  o.report.stopRequested = true ∨ haltOnFailure = true ∧ o.failed = true

theorem shouldHalt_of_after (moves : List Move)
    (halting : (s.after moves).controller.shouldHalt = true) :
    s.controller.shouldHalt = true ∨ .stop ∈ moves ∨
      ∃ o ∈ (s.after moves).sent.flatMap (·.outcomes), Alarms s.controller.haltOnFailure o := by
  induction moves generalizing s with
  | nil => exact .inl halting
  | cons move moves induction =>
      cases move with
      | stop => exact .inr (.inl List.mem_cons_self)
      | proceed =>
          obtain ⟨told, outcomes, haltOnFailure, halted, stopped⟩ := s.proceed_outcomes
          rcases induction (s := s.proceed) halting with already | stop | ⟨o, member, alarms⟩
          · rw [Controller.shouldHalt, halted, stopped] at already
            simp only [Bool.or_eq_true, List.any_eq_true, Bool.and_eq_true] at already
            have heard {o : TaskOutcome} (member : o ∈ told) :
                o ∈ (s.after (.proceed :: moves)).sent.flatMap (·.outcomes) := by
              refine outcomes_subset_after s.proceed moves ?_
              rw [outcomes]
              exact List.mem_append_right _ member
            rcases already with (before | ⟨o, member, isFailed, halts⟩) | before | ⟨o, member, requested⟩
            · exact .inl (by simp [Controller.shouldHalt, before])
            · exact .inr (.inr ⟨o, heard member, .inr ⟨halts, isFailed⟩⟩)
            · exact .inl (by simp [Controller.shouldHalt, before])
            · exact .inr (.inr ⟨o, heard member, .inl requested⟩)
          · exact .inr (.inl (List.mem_cons_of_mem _ stop))
          · rw [haltOnFailure] at alarms
            exact .inr (.inr ⟨o, member, alarms⟩)

/-! What a run sends. -/

theorem Orderly.outcome_ticks_of_moving (orderly : Orderly c s) (moving : s.phase ≠ .stuck) :
    (s.sent.flatMap (·.outcomes)).map (·.tick) = List.range s.controller.tick :=
  (Batch.ticks_of_told (orderly.told moving)).trans orderly.logged.ticks

theorem outcomes_of_through (batches : s.batches = []) :
    s.sent.flatMap (·.outcomes) =
      (s.errands.flatMap (·.laps)).flatMap (·.outcomes) ++ s.laps.flatMap (·.outcomes) := by
  rw [sent, batches, List.append_nil, List.flatMap_assoc, ended, List.flatMap_append]
  rfl

theorem Lap.Follows.length_le {rounds : Nat} {lap : Lap ω} (follows : lap.Follows c rounds) :
    lap.outcomes.length ≤ c.tasks.length := by
  have told := congrArg List.length follows.headings
  have begun := follows.inOrder.length_le
  rw [List.length_map, List.length_map] at told
  rw [List.length_map, (planned_perm c rounds).length_eq] at begun
  exact told ▸ begun

theorem Lap.Follows.length_eq {rounds : Nat} {lap : Lap ω} (follows : lap.Follows c rounds)
    (whole : lap.interrupted = false) : lap.outcomes.length = c.tasks.length := by
  have told := congrArg List.length follows.headings
  have planned := congrArg List.length (follows.toTheEnd whole)
  rw [List.length_map, List.length_map] at told
  rw [List.length_map, (planned_perm c rounds).length_eq] at planned
  exact told.trans planned

/-- A run that is through its rounds, or is to halt, has sent at most what it should, and all of that
unless it is to halt. -/
theorem Orderly.length_own (orderly : Orderly c s) {rounds : Nat}
    (through : rounds = 0 ∨ s.controller.shouldHalt = true) :
    (s.laps.flatMap (·.outcomes)).length ≤ (s.laps.length + rounds) * c.tasks.length ∧
      (s.controller.shouldHalt = false →
        (s.laps.flatMap (·.outcomes)).length = (s.laps.length + rounds) * c.tasks.length) := by
  have follows : ∀ lap ∈ s.laps, ∃ rounds, lap.Follows c rounds := by
    intro lap member
    obtain ⟨place, found⟩ := List.getElem?_of_mem (List.mem_append_right _ member : lap ∈ s.ended)
    exact ⟨place, orderly.logged.follows place lap found⟩
  rw [List.length_flatMap]
  constructor
  · refine (List.sum_le_card_nsmul _ c.tasks.length ?_).trans ?_
    · refine List.forall_mem_map.mpr fun lap member => ?_
      obtain ⟨rounds, lapFollows⟩ := follows lap member
      exact lapFollows.length_le
    · rw [List.length_map, smul_eq_mul]
      exact Nat.mul_le_mul_right _ (Nat.le_add_right _ _)
  · intro going
    have noneLeft : rounds = 0 := through.resolve_right (by rw [going]; exact Bool.false_ne_true)
    rw [noneLeft, Nat.add_zero, List.sum_eq_card_nsmul _ c.tasks.length, List.length_map, smul_eq_mul]
    refine List.forall_mem_map.mpr fun lap member => ?_
    obtain ⟨rounds, lapFollows⟩ := follows lap member
    refine lapFollows.length_eq ?_
    cases cut : lap.interrupted with
    | false => rfl
    | true =>
        have halting := orderly.logged.excused lap (List.mem_append_right _ member) cut
        rw [going] at halting
        cases halting

/-- A summary is given between two rounds, of the controller as it is then. -/
theorem Orderly.summary_at (orderly : Orderly c s) {moves : List Move} {place : Nat}
    {errand : Errand ω} {summary : RunSummary}
    (found : (s.after moves).errands[place]? = some errand) (new : s.errands.length ≤ place)
    (answer : errand.answer = .summary summary) :
    ∃ before later rounds completed, moves = before ++ .proceed :: later ∧
      (s.after before).errands.length = place ∧
      (s.after before).proceed.errands = (s.after before).errands ++ [errand] ∧
      (s.after before).phase = .betweenRounds rounds completed ∧
      (rounds = 0 ∨ (s.after before).controller.shouldHalt = true) ∧
      errand.laps = (s.after before).laps ∧
      summary = (s.after before).controller.summary completed := by
  obtain ⟨before, later, rfl, length, answered⟩ := orderly.answered_at found new
  refine ⟨before, later, ?_⟩
  cases (orderly.after before).answers_proceed with
  | nothing errands =>
      rw [errands] at answered
      have lengths := congrArg List.length answered
      simp at lengths
  | noSummary command other errands noSummary =>
      rw [errands] at answered
      cases List.append_cancel_left answered
      exact absurd answer (noSummary summary)
  | summary rounds completed phase through errands =>
      rw [errands] at answered
      cases List.append_cancel_left answered
      cases answer
      exact ⟨rounds, completed, rfl, length, errands, phase, through, rfl, rfl⟩

/-- A summary between two rounds counts all that the controller has sent. -/
theorem Orderly.counts (orderly : Orderly c s) (recorded : Recorded s) (moving : s.phase ≠ .stuck)
    (completed : Nat) :
    (s.controller.summary completed).Counts (s.sent.flatMap (·.outcomes)) := by
  refine Controller.Tallied.summary recorded ?_ completed
  have ticks := congrArg List.length (orderly.outcome_ticks_of_moving moving)
  rw [List.length_map, List.length_range] at ticks
  exact ticks.symm

variable (tasks : List Task) (workers : List (Worker ω)) (policy : Policy) (mode : Mode)
  (haltOnFailure : Bool) (world : ω) (commands : List Command)

theorem recorded_start :
    Recorded (start (Controller.assemble tasks workers policy mode haltOnFailure) world commands) :=
  Controller.tallied_assemble tasks workers policy mode haltOnFailure

/-- A controller is to halt once it has been told to stop, or something that was sent has come back with a
reason to. -/
theorem shouldHalt_iff (moves : List Move) :
    let c := Controller.assemble tasks workers policy mode haltOnFailure
    let s := (start c world commands).after moves
    s.controller.shouldHalt = true ↔
      .stop ∈ moves ∨ ∃ o ∈ s.sent.flatMap (·.outcomes), Alarms haltOnFailure o := by
  intro c s
  have first : Orderly c (start c world commands) :=
    orderly_start tasks workers policy mode haltOnFailure world commands
  have fresh : c = _ := Controller.assemble_eq tasks workers policy mode haltOnFailure
  have sameHalt : c.haltOnFailure = haltOnFailure := by rw [fresh]
  constructor
  · intro halting
    rcases shouldHalt_of_after moves halting with already | stop | ⟨o, member, alarms⟩
    · rw [start, fresh] at already
      cases already
    · exact .inl stop
    · exact .inr ⟨o, member, sameHalt ▸ alarms⟩
  · rintro (stop | ⟨o, member, alarms⟩)
    · exact shouldHalt_after_stop stop
    · have heeded := (heeded_start c world commands).after moves
      refine heeded.shouldHalt member ?_
      rw [(first.after moves).logged.setUp.haltOnFailure, sameHalt]
      exact alarms

/-- Whatever a controller has been told to do before, stopped or not, the summary of a run counts the
outcomes of all that has been sent when it is given, which bear the ticks from 0 on: how many they are
and how many of them failed, and the same for each of the tasks among them. -/
theorem summaries_add_up (moves : List Move) :
    let c := Controller.assemble tasks workers policy mode haltOnFailure
    let s := (start c world commands).after moves
    ∀ place errand summary, s.errands[place]? = some errand → errand.answer = .summary summary →
      ∃ before later, moves = before ++ .proceed :: later ∧
        let now := (start c world commands).after before
        now.errands.length = place ∧ now.proceed.errands = now.errands ++ [errand] ∧
        (now.sent.flatMap (·.assignments)).map (·.tick) = List.range summary.dispatched ∧
        (now.sent.flatMap (·.outcomes)).map (·.tick) = List.range summary.dispatched ∧
        summary.Counts (now.sent.flatMap (·.outcomes)) := by
  intro c s place errand summary found answer
  have first : Orderly c (start c world commands) :=
    orderly_start tasks workers policy mode haltOnFailure world commands
  obtain ⟨before, later, rounds, completed, split, length, answered, phase, -, -, rfl⟩ :=
    first.summary_at found (Nat.zero_le _) answer
  have moving : ((start c world commands).after before).phase ≠ .stuck := by
    rw [phase]
    exact Phase.noConfusion
  have recorded := (recorded_start tasks workers policy mode haltOnFailure world commands).after before
  have orderly := first.after before
  exact ⟨before, later, split, length, answered, orderly.logged.ticks,
    orderly.outcome_ticks_of_moving moving, orderly.counts recorded moving completed⟩

/-- Two tasks of one name and calls that fail in two ways, in a run, a round and another run. -/
theorem summaries_add_up_to_twelve :
    let call (_ : Task) (n : Nat) : Option (CallReport × Nat) :=
      let outcome : Outcome :=
        if n % 3 = 1 then .error (.timeout 5)
        else if n % 4 = 3 then .error (.unreachable "gone")
        else .ok .null
      some (⟨outcome, 2500, false⟩, n + 1)
    let tasks : List Task := ["b", "a", "b"].map fun name => ⟨name, .ofClass "Worker", "run", []⟩
    let c := Controller.assemble tasks [⟨"w0", call⟩, ⟨"w1", call⟩] .roundRobin (.parallel 0) false
    let moves := List.replicate 30 Move.proceed
    let s := (start c 0 [.run 1, .round, .run 2]).after moves
    ∃ (errand : Errand Nat) (summary : RunSummary),
      s.errands[2]? = some errand ∧ errand.answer = .summary summary ∧
      summary.dispatched = 12 ∧ summary.failed = 6 ∧
      summary.tasks.map (fun entry => (entry.1, entry.2.latencies.calls, entry.2.failures)) =
        [("a", 4, 4), ("b", 8, 2)] ∧
      ∃ before later, moves = before ++ .proceed :: later ∧
        let now := (start c 0 [.run 1, .round, .run 2]).after before
        now.errands.length = 2 ∧ now.proceed.errands = now.errands ++ [errand] ∧
        (now.sent.flatMap (·.assignments)).map (·.tick) = List.range summary.dispatched ∧
        (now.sent.flatMap (·.outcomes)).map (·.tick) = List.range summary.dispatched ∧
        summary.Counts (now.sent.flatMap (·.outcomes)) := by
  intro call tasks c moves s
  have answered : (s.errands[2]?.bind (·.answer.summary?)).isSome = true := by decide +kernel
  obtain ⟨errand, summary, found, answer, shown⟩ := exists_summary answered
  have shows : (s.errands[2]?.bind (·.answer.summary?)).map (fun summary =>
      (summary.dispatched, summary.failed,
        summary.tasks.map fun entry => (entry.1, entry.2.latencies.calls, entry.2.failures))) =
      some (12, 6, [("a", 4, 4), ("b", 8, 2)]) := by decide +kernel
  rw [shown, Option.map_some, Option.some.injEq, Prod.mk.injEq, Prod.mk.injEq] at shows
  exact ⟨errand, summary, found, answer, shows.1, shows.2.1, shows.2.2,
    summaries_add_up tasks _ .roundRobin (.parallel 0) false 0 [.run 1, .round, .run 2] moves
      2 errand summary found answer⟩

/-- The summary of a run counts what the run has sent and all that had been sent before, so that it is
the run's own exactly if nothing had been. It tells of an early end if the run has not sent all tasks of
all its rounds, and also where the last of them failed or somebody asked for a stop by then. -/
theorem run_summary_of_life (moves : List Move) :
    let c := Controller.assemble tasks workers policy mode haltOnFailure
    let s := (start c world commands).after moves
    ∀ place errand summary, s.errands[place]? = some errand → errand.answer = .summary summary →
      ∃ rounds before later, commands[place]? = some (.run rounds) ∧
        moves = before ++ .proceed :: later ∧
        let now := (start c world commands).after before
        let earlier := (now.errands.flatMap (·.laps)).flatMap (·.outcomes)
        let own := errand.laps.flatMap (·.outcomes)
        now.errands.length = place ∧ now.proceed.errands = now.errands ++ [errand] ∧
        summary.Counts (earlier ++ own) ∧ (summary.Counts own ↔ earlier = []) ∧
        summary.roundsCompleted = errand.laps.countP (·.complete tasks) ∧
        own.length ≤ rounds * tasks.length ∧
        (own.length < rounds * tasks.length → summary.stoppedEarly = true) ∧
        (summary.stoppedEarly = true ↔
          .stop ∈ before ∨ ∃ o ∈ earlier ++ own, Alarms haltOnFailure o) := by
  intro c s place errand summary found answer
  have first : Orderly c (start c world commands) :=
    orderly_start tasks workers policy mode haltOnFailure world commands
  have fresh : c = _ := Controller.assemble_eq tasks workers policy mode haltOnFailure
  have roundsCompleted := (first.after moves).roundsCompleted (List.mem_of_getElem? found) answer
  obtain ⟨before, later, rounds, completed, split, length, answered, phase, through, laps, summed⟩ :=
    first.summary_at found (Nat.zero_le _) answer
  have moving : ((start c world commands).after before).phase ≠ .stuck := by
    rw [phase]
    exact Phase.noConfusion
  have recorded := (recorded_start tasks workers policy mode haltOnFailure world commands).after before
  have orderly := first.after before
  have placed := orderly.placed
  rw [phase] at placed
  have outcomes := outcomes_of_through placed.batches
  have counts := orderly.counts recorded moving completed
  rw [← summed, outcomes, ← laps] at counts
  have listed : Listed commands (start c world commands) := fun _ => rfl
  have command := (listed.after first before).command phase
  have own := orderly.length_own through
  have sameTasks : c.tasks = tasks := by rw [fresh]
  rw [← laps, sameTasks] at own
  rw [sameTasks] at roundsCompleted
  have flag : summary.stoppedEarly = ((start c world commands).after before).controller.shouldHalt := by
    rw [summed]
    rfl
  have reasons := shouldHalt_iff tasks workers policy mode haltOnFailure world commands before
  refine ⟨errand.laps.length + rounds, before, later, ?_, split, length, answered, counts, ?_,
    roundsCompleted, own.1, ?_, ?_⟩
  · rw [← length, laps]
    exact command
  · constructor
    · intro ownCounts
      have same := counts.dispatched.symm.trans ownCounts.dispatched
      rw [List.length_append] at same
      exact List.length_eq_zero_iff.mp (by omega)
    · intro nothing
      rwa [nothing, List.nil_append] at counts
  · intro fewer
    rw [flag]
    cases halting : ((start c world commands).after before).controller.shouldHalt with
    | true => rfl
    | false => exact absurd (own.2 halting) (Nat.ne_of_lt fewer)
  · rw [flag, laps, ← outcomes]
    exact reasons

theorem run_summary_of_life_twice :
    let call (_ : Task) (n : Nat) : Option (CallReport × Nat) :=
      some (⟨if n = 4 then .error (.unreachable "gone") else .ok .null, 2500, false⟩, n + 1)
    let tasks : List Task := ["a", "b"].map fun name => ⟨name, .ofClass "Worker", "run", []⟩
    let c := Controller.assemble tasks [⟨"w0", call⟩] .roundRobin .serial true
    let moves := List.replicate 30 Move.proceed
    let s := (start c 0 [.run 1, .run 2]).after moves
    ∃ (errand : Errand Nat) (summary : RunSummary),
      s.errands[1]? = some errand ∧ errand.answer = .summary summary ∧
      ∃ rounds before later, [Command.run 1, .run 2][1]? = some (.run rounds) ∧
        moves = before ++ .proceed :: later ∧
        let now := (start c 0 [.run 1, .run 2]).after before
        let earlier := (now.errands.flatMap (·.laps)).flatMap (·.outcomes)
        let own := errand.laps.flatMap (·.outcomes)
        now.errands.length = 1 ∧ now.proceed.errands = now.errands ++ [errand] ∧
        summary.Counts (earlier ++ own) ∧ (summary.Counts own ↔ earlier = []) ∧
        summary.roundsCompleted = errand.laps.countP (·.complete tasks) ∧
        own.length ≤ rounds * tasks.length ∧
        (own.length < rounds * tasks.length → summary.stoppedEarly = true) ∧
        (summary.stoppedEarly = true ↔
          .stop ∈ before ∨ ∃ o ∈ earlier ++ own, Alarms true o) := by
  intro call tasks c moves s
  have answered : (s.errands[1]?.bind (·.answer.summary?)).isSome = true := by decide +kernel
  obtain ⟨errand, summary, found, answer, -⟩ := exists_summary answered
  exact ⟨errand, summary, found, answer,
    run_summary_of_life tasks _ .roundRobin .serial true 0 [.run 1, .run 2] moves 1 errand summary
      found answer⟩

/-- One task on one worker: the second of two runs of one round counts two outcomes and has one of its
own, and a run whose only task fails has sent all it should and is said to have ended early. -/
theorem summary_beyond_own_run :
    let task : Task := ⟨"t0", .ofClass "Worker", "run_task", []⟩
    let worker (outcome : Outcome) : Worker Unit :=
      ⟨"w0", fun _ world => some (⟨outcome, 0, false⟩, world)⟩
    let well := Controller.assemble [task] [worker (.ok .null)] .roundRobin .serial false
    let badly := Controller.assemble [task] [worker (.error (.unreachable "gone"))] .roundRobin
      .serial true
    let twice := (start well () [.run 1, .run 1]).after (.replicate 10 .proceed)
    let once := (start badly () [.run 1]).after (.replicate 10 .proceed)
    (∃ (errand : Errand Unit) (summary : RunSummary),
      twice.errands[1]? = some errand ∧ errand.answer = .summary summary ∧
      summary.roundsCompleted = 1 ∧ summary.dispatched = 2 ∧
      ¬ summary.Counts (errand.laps.flatMap (·.outcomes))) ∧
    ∃ (errand : Errand Unit) (summary : RunSummary),
      once.errands[0]? = some errand ∧ errand.answer = .summary summary ∧
      summary.roundsCompleted = 1 ∧
      ¬ (summary.stoppedEarly = true ↔ (errand.laps.flatMap (·.outcomes)).length < 1 * 1) := by
  intro task worker well badly twice once
  constructor
  · have answered : (twice.errands[1]?.bind (·.answer.summary?)).isSome = true := by decide +kernel
    obtain ⟨errand, summary, found, answer, shown⟩ := exists_summary answered
    have counted : (twice.errands[1]?.bind (·.answer.summary?)).map (fun summary =>
        (summary.roundsCompleted, summary.dispatched)) = some (1, 2) := by decide +kernel
    have sent : twice.errands[1]?.map (fun errand => (errand.laps.flatMap (·.outcomes)).length) =
        some 1 := by decide +kernel
    rw [shown, Option.map_some, Option.some.injEq, Prod.mk.injEq] at counted
    rw [found, Option.map_some, Option.some.injEq] at sent
    refine ⟨errand, summary, found, answer, counted.1, counted.2, fun counts => ?_⟩
    have same := counts.dispatched
    rw [counted.2, sent] at same
    cases same
  · have answered : (once.errands[0]?.bind (·.answer.summary?)).isSome = true := by decide +kernel
    obtain ⟨errand, summary, found, answer, shown⟩ := exists_summary answered
    have told : (once.errands[0]?.bind (·.answer.summary?)).map (fun summary =>
        (summary.roundsCompleted, summary.stoppedEarly)) = some (1, true) := by decide +kernel
    have sent : once.errands[0]?.map (fun errand => (errand.laps.flatMap (·.outcomes)).length) =
        some 1 := by decide +kernel
    rw [shown, Option.map_some, Option.some.injEq, Prod.mk.injEq] at told
    rw [found, Option.map_some, Option.some.injEq] at sent
    refine ⟨errand, summary, found, answer, told.1, fun law => ?_⟩
    have fewer := law.mp told.2
    rw [sent] at fewer
    exact absurd fewer (Nat.lt_irrefl 1)

end Campaign

end Coordination
