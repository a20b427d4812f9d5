import Coordination.Proofs.Rounds.Schedule
import Mathlib.Data.List.Forall2

/-!
Step by step and undisturbed, a campaign comes to what its controller comes to when it performs each
command in one go.
-/

namespace Coordination

namespace Controller

variable {ω : Type}

open Campaign (Command Answer)

/-- The one comes after the other: its tasks and workers are the same, and it halts if that one does. -/
structure Later (c after : Controller ω) : Prop where
  tasks : after.tasks = c.tasks
  workers : after.workers = c.workers
  halting : c.shouldHalt = true → after.shouldHalt = true

theorem Later.trans {c middle after : Controller ω} (first : Later c middle)
    (second : Later middle after) : Later c after :=
  ⟨second.tasks.trans first.tasks, second.workers.trans first.workers, second.halting ∘ first.halting⟩

theorem Later.notReady? {c after : Controller ω} (later : Later c after) :
    after.notReady? = c.notReady? := by
  rw [Controller.notReady?, Controller.notReady?, later.tasks, later.workers]

theorem runBatch_later {c after : Controller ω} {batch : List Nat} {world last : ω}
    {outcomes : List TaskOutcome} (ran : c.runBatch batch world = some (outcomes, after, last)) :
    Later c after := by
  obtain ⟨-, records, failed, rfl⟩ := runBatch_spec ran
  refine ⟨rfl, rfl, ?_⟩
  simp only [shouldHalt, Bool.or_eq_true]
  exact Or.imp .inl .inl

theorem runBatches_later {c after : Controller ω} {batches : List (List Nat)} {world last : ω}
    {outcomes : List TaskOutcome}
    (ran : c.runBatches world batches = some (outcomes, after, last)) : Later c after := by
  induction batches generalizing c world outcomes with
  | nil =>
      cases ran
      exact ⟨rfl, rfl, id⟩
  | cons batch batches induction =>
      rw [runBatches] at ran
      split at ran
      · cases ran
        exact ⟨rfl, rfl, id⟩
      · simp only [Option.bind_eq_bind, Option.bind_eq_some_iff, Prod.exists] at ran
        obtain ⟨now, between, world', ranBatch, later, middle, last', ranLater, same⟩ := ran
        cases same
        exact (runBatch_later ranBatch).trans (induction ranLater)

theorem performRound_later {c after : Controller ω} {world last : ω}
    {outcomes : List TaskOutcome} (ran : c.performRound world = some (outcomes, after, last)) :
    Later c after :=
  (show Later c { c with round := c.round + 1, policy := (c.policy.order c.tasks.length).2 } from
    ⟨rfl, rfl, id⟩).trans (runBatches_later ran)

theorem performRounds_later {c after : Controller ω} {rounds count : Nat} {world last : ω}
    (ran : c.performRounds world rounds = some (count, after, last)) : Later c after := by
  induction rounds generalizing c world count with
  | zero =>
      cases ran
      exact ⟨rfl, rfl, id⟩
  | succ rounds induction =>
      rw [performRounds] at ran
      split at ran
      · cases ran
        exact ⟨rfl, rfl, id⟩
      · simp only [Option.bind_eq_bind, Option.bind_eq_some_iff, Prod.exists] at ran
        obtain ⟨outcomes, between, world', ranRound, later, middle, last', ranLater, same⟩ := ran
        cases same
        exact (performRound_later ranRound).trans (induction ranLater)

theorem perform_later {c after : Controller ω} {command : Command} {answer : Answer}
    {world last : ω} (ran : c.perform command world = some (answer, after, last)) :
    Later c after := by
  cases command with
  | round =>
      simp only [perform, runRound] at ran
      split at ran
      · cases ran
        exact ⟨rfl, rfl, id⟩
      · simp only [Option.map_map, Option.map_eq_some_iff, Prod.exists] at ran
        obtain ⟨outcomes, between, world', performed, same⟩ := ran
        cases same
        exact performRound_later performed
  | run rounds =>
      simp only [perform, run] at ran
      split at ran
      · cases ran
        exact ⟨rfl, rfl, id⟩
      · simp only [Option.map_map, Option.map_eq_some_iff, Prod.exists] at ran
        obtain ⟨count, between, world', performed, same⟩ := ran
        cases same
        exact performRounds_later performed

theorem performAll_later {c after : Controller ω} {commands : List Command} {answers : List Answer}
    {world last : ω} (ran : c.performAll world commands = some (answers, after, last)) :
    Later c after := by
  induction commands generalizing c world answers with
  | nil =>
      cases ran
      exact ⟨rfl, rfl, id⟩
  | cons command commands induction =>
      simp only [performAll, Option.bind_eq_bind, Option.bind_eq_some_iff, Prod.exists] at ran
      obtain ⟨answer, between, world', performed, later, middle, last', ranLater, same⟩ := ran
      cases same
      exact (perform_later performed).trans (induction ranLater)

/-! Performances that come to their end. -/

def Returns (c : Controller ω) : Prop := ∀ w ∈ c.workers, ∀ task world, (w.call task world).isSome

theorem Later.returns {c after : Controller ω} (later : Later c after) (returns : c.Returns) :
    after.Returns := by
  rw [Returns, later.workers]
  exact returns

theorem worker_mem_of_mem_assignments {c : Controller ω} {batch : List Nat} {a : Assignment ω}
    (member : a ∈ c.assignments batch) : a.worker ∈ c.workers := by
  obtain ⟨⟨index, offset⟩, -, assigned⟩ := List.mem_filterMap.mp member
  simp only [assign?, Option.bind_eq_bind, Option.bind_eq_some_iff] at assigned
  obtain ⟨task, -, worker, found, same⟩ := assigned
  cases same
  exact List.mem_of_getElem? found

theorem runAssignments_isSome {sent : List (Assignment ω)}
    (returns : ∀ a ∈ sent, ∀ task world, (a.worker.call task world).isSome) (round : Nat)
    (world : ω) : (runAssignments round sent world).isSome := by
  induction sent generalizing world with
  | nil => rfl
  | cons a sent induction =>
      obtain ⟨first, others⟩ := List.forall_mem_cons.mp returns
      obtain ⟨⟨report, between⟩, called⟩ := Option.isSome_iff_exists.mp (first a.task world)
      obtain ⟨⟨later, last⟩, ran⟩ := Option.isSome_iff_exists.mp (induction others between)
      simp [runAssignments, called, ran]

theorem runBatch_isSome {c : Controller ω} (returns : c.Returns) (batch : List Nat) (world : ω) :
    (c.runBatch batch world).isSome := by
  rw [runBatch, Option.isSome_map]
  exact runAssignments_isSome
    (fun a member => returns a.worker (worker_mem_of_mem_assignments member)) _ _

theorem runBatches_isSome {c : Controller ω} (returns : c.Returns) (batches : List (List Nat))
    (world : ω) : (c.runBatches world batches).isSome := by
  induction batches generalizing c world with
  | nil => rfl
  | cons batch batches induction =>
      rw [runBatches]
      split
      · rfl
      · obtain ⟨⟨outcomes, after, between⟩, ran⟩ :=
          Option.isSome_iff_exists.mp (runBatch_isSome returns batch world)
        obtain ⟨⟨later, last, world'⟩, ranLater⟩ := Option.isSome_iff_exists.mp
          (induction ((runBatch_later ran).returns returns) between)
        simp [ran, ranLater]

theorem performRound_isSome {c : Controller ω} (returns : c.Returns) (world : ω) :
    (c.performRound world).isSome := runBatches_isSome (c := { c with
      round := c.round + 1, policy := (c.policy.order c.tasks.length).2 }) returns _ _

theorem performRounds_isSome {c : Controller ω} (returns : c.Returns) (rounds : Nat) (world : ω) :
    (c.performRounds world rounds).isSome := by
  induction rounds generalizing c world with
  | zero => rfl
  | succ rounds induction =>
      rw [performRounds]
      split
      · rfl
      · obtain ⟨⟨outcomes, after, between⟩, ran⟩ :=
          Option.isSome_iff_exists.mp (performRound_isSome returns world)
        obtain ⟨⟨later, last, world'⟩, ranLater⟩ := Option.isSome_iff_exists.mp
          (induction ((performRound_later ran).returns returns) between)
        simp [ran, ranLater]

theorem perform_isSome {c : Controller ω} (returns : c.Returns) (command : Command) (world : ω) :
    (c.perform command world).isSome := by
  cases command with
  | round =>
      rw [perform, Option.isSome_map, runRound]
      split
      · rfl
      · rw [Option.isSome_map]
        exact performRound_isSome returns world
  | run rounds =>
      rw [perform, Option.isSome_map, run]
      split
      · rfl
      · rw [Option.isSome_map]
        exact performRounds_isSome returns rounds world

theorem performAll_isSome {c : Controller ω} (returns : c.Returns) (commands : List Command)
    (world : ω) : (c.performAll world commands).isSome := by
  induction commands generalizing c world with
  | nil => rfl
  | cons command commands induction =>
      obtain ⟨⟨answer, after, between⟩, ran⟩ :=
        Option.isSome_iff_exists.mp (perform_isSome returns command world)
      obtain ⟨⟨later, last, world'⟩, ranLater⟩ := Option.isSome_iff_exists.mp
        (induction ((perform_later ran).returns returns) between)
      simp [performAll, ran, ranLater]

end Controller

namespace Campaign

variable {ω α β : Type} {s s' s'' : Campaign ω}

/-! Steps within a round. -/

section Steps

variable {batch : List Nat} {left : List (List Nat)} {series : Option (Nat × Nat)}

theorem proceed_of_through (phase : s.phase = .inRound [] series) :
    s.proceed = s.endRound false series := by
  rw [proceed, phase]

theorem proceed_of_halting (phase : s.phase = .inRound (batch :: left) series)
    (halting : s.controller.shouldHalt = true) : s.proceed = s.endRound true series := by
  rw [proceed, phase]
  exact if_pos halting

theorem proceed_of_going (phase : s.phase = .inRound (batch :: left) series)
    (going : s.controller.shouldHalt = false) : s.proceed = s.sendBatch batch left series := by
  rw [proceed, phase]
  exact if_neg (by rw [going]; exact Bool.false_ne_true)

end Steps

/-! Steps one after another. -/

theorem after_append (moves later : List Move) :
    s.after (moves ++ later) = (s.after moves).after later := List.foldl_append

/-- What it takes to have done a command: a round, or all rounds of a run unless the controller halts. -/
def Errand.Fulfils (halting : Bool) (errand : Errand ω) : Command → Prop
  | .round => ∃ lap, errand.laps = [lap] ∧ errand.answer = .outcomes lap.outcomes
  | .run rounds =>
      (∃ summary, errand.answer = .summary summary) ∧ errand.laps.length ≤ rounds ∧
        (halting = false → errand.laps.length = rounds)

theorem Errand.Fulfils.of_later {c after : Controller ω} {errand : Errand ω} {command : Command}
    (fulfils : errand.Fulfils c.shouldHalt command) (later : Controller.Later c after) :
    errand.Fulfils after.shouldHalt command := by
  cases command with
  | round => exact fulfils
  | run rounds =>
      obtain ⟨summary, few, all⟩ := fulfils
      refine ⟨summary, few, fun going => all ?_⟩
      exact Bool.eq_false_iff.mpr fun halting =>
        Bool.false_ne_true (going.symm.trans (later.halting halting))

/-- Undisturbed steps bring the one to the other. -/
def Leads (s s' : Campaign ω) : Prop := ∃ steps, s.after (List.replicate steps .proceed) = s'

theorem Leads.refl (s : Campaign ω) : Leads s s := ⟨0, rfl⟩

theorem Leads.step (leads : Leads s.proceed s') : Leads s s' := by
  obtain ⟨steps, after⟩ := leads
  exact ⟨steps + 1, after⟩

theorem after_replicate_add (steps more : Nat) :
    s.after (List.replicate (steps + more) .proceed) =
      (s.after (List.replicate steps .proceed)).after (List.replicate more .proceed) := by
  rw [← List.replicate_append_replicate, after_append]

theorem Leads.trans (first : Leads s s') (second : Leads s' s'') : Leads s s'' := by
  obtain ⟨steps, rfl⟩ := first
  obtain ⟨more, rfl⟩ := second
  exact ⟨steps + more, after_replicate_add steps more⟩

/-- There is only one way to go. -/
theorem Leads.total (leads' : Leads s s') (leads'' : Leads s s'') : Leads s' s'' ∨ Leads s'' s' := by
  obtain ⟨steps, rfl⟩ := leads'
  obtain ⟨steps', rfl⟩ := leads''
  rcases Nat.le_total steps steps' with fewer | fewer
  · obtain ⟨more, rfl⟩ := Nat.exists_eq_add_of_le fewer
    exact .inl ⟨more, (after_replicate_add steps more).symm⟩
  · obtain ⟨more, rfl⟩ := Nat.exists_eq_add_of_le fewer
    exact .inr ⟨more, (after_replicate_add steps' more).symm⟩

theorem Leads.eq_of_finished (leads : Leads s s') (phase : s.phase = .idle)
    (commands : s.commands = []) : s' = s := by
  obtain ⟨steps, rfl⟩ := leads
  have stays : s.proceed = s := by
    rw [Campaign.proceed, phase]
    dsimp only
    rw [commands]
  induction steps with
  | zero => rfl
  | succ steps induction =>
      change s.proceed.after _ = s
      rw [stays, induction]

/-- What a campaign comes to, by what its controller comes to in one go. -/
def ComesTo (s : Campaign ω) (result : Option α) (goal : α → Campaign ω → Prop) : Prop :=
  match result with
  | none => ∃ s', Leads s s' ∧ s'.phase = .stuck
  | some a => ∃ s', Leads s s' ∧ goal a s'

section ComesTo

variable {result : Option α} {goal : α → Campaign ω → Prop} {goal' : β → Campaign ω → Prop}

theorem comesTo_some {a : α} (reached : goal a s) : ComesTo s (some a) goal := ⟨s, .refl s, reached⟩

theorem ComesTo.after (comes : ComesTo s' result goal) (leads : Leads s s') :
    ComesTo s result goal := by
  cases result with
  | none =>
      obtain ⟨last, leadsOn, stuck⟩ := comes
      exact ⟨last, leads.trans leadsOn, stuck⟩
  | some a =>
      obtain ⟨last, leadsOn, reached⟩ := comes
      exact ⟨last, leads.trans leadsOn, reached⟩

theorem ComesTo.bind {next : α → Option β} (comes : ComesTo s result goal)
    (goesOn : ∀ a s', result = some a → goal a s' → ComesTo s' (next a) goal') :
    ComesTo s (result.bind next) goal' := by
  cases result with
  | none => exact comes
  | some a =>
      obtain ⟨middle, leads, reached⟩ := comes
      exact (goesOn a middle rfl reached).after leads

theorem ComesTo.imp {other : α → Campaign ω → Prop} (comes : ComesTo s result goal)
    (implies : ∀ a s', goal a s' → other a s') : ComesTo s result other := by
  cases result with
  | none => exact comes
  | some a =>
      obtain ⟨last, leads, reached⟩ := comes
      exact ⟨last, leads, implies a last reached⟩

theorem ComesTo.map {f : α → β} (comes : ComesTo s result goal)
    (implies : ∀ a s', goal a s' → goal' (f a) s') : ComesTo s (result.map f) goal' := by
  rw [Option.map_eq_bind]
  exact comes.bind fun a s' _ reached => comesTo_some (implies a s' reached)

end ComesTo

/-! Batches, rounds and runs. -/

theorem comesTo_runBatch {batch : List Nat} {left : List (List Nat)} {series : Option (Nat × Nat)}
    (phase : s.phase = .inRound (batch :: left) series) (going : s.controller.shouldHalt = false) :
    ComesTo s (s.controller.runBatch batch s.world) fun (outcomes, controller, world) s' =>
      s' = { s with
        controller
        world
        phase := .inRound left series
        batches := s.batches ++
          [⟨s.controller.round, s.controller.assignments batch, outcomes⟩] } := by
  have sends : Leads s (s.sendBatch batch left series) := by
    refine Leads.step ?_
    rw [proceed_of_going phase going]
    exact .refl _
  cases ran : s.controller.runBatch batch s.world with
  | none => exact ⟨_, sends, by rw [sendBatch, ran]⟩
  | some result => exact ⟨_, sends, by rw [sendBatch, ran]⟩

theorem comesTo_runBatches {left : List (List Nat)} {series : Option (Nat × Nat)}
    (phase : s.phase = .inRound left series) :
    ComesTo s (s.controller.runBatches s.world left) fun (outcomes, controller, world) s' =>
      ∃ batches interrupted, batches.flatMap (·.outcomes) = outcomes ∧
        s' = { s with controller, world, batches := s.batches ++ batches }.endRound
          interrupted series := by
  induction left generalizing s with
  | nil =>
      refine ⟨_, Leads.step (.refl _), [], false, rfl, ?_⟩
      rw [proceed_of_through phase, List.append_nil]
  | cons batch left induction =>
      rw [Controller.runBatches]
      cases halting : s.controller.shouldHalt with
      | true =>
          refine ⟨_, Leads.step (.refl _), [], true, rfl, ?_⟩
          rw [proceed_of_halting phase halting, List.append_nil]
      | false =>
          refine (comesTo_runBatch phase halting).bind ?_
          rintro ⟨outcomes, controller, world⟩ s' - rfl
          refine (induction rfl).bind ?_
          rintro ⟨later, controller, world⟩ s' - ⟨batches, interrupted, rfl, rfl⟩
          refine comesTo_some ⟨⟨s.controller.round, s.controller.assignments batch, outcomes⟩ :: batches,
            interrupted, List.flatMap_cons, ?_⟩
          rw [List.append_assoc]
          rfl

theorem comesTo_performRound (series : Option (Nat × Nat)) (batches : s.batches = []) :
    ComesTo (s.beginRound series) (s.controller.performRound s.world)
      fun (outcomes, controller, world) s' =>
        ∃ batches interrupted, batches.flatMap (·.outcomes) = outcomes ∧
          s' = { s with controller, world, batches }.endRound interrupted series := by
  have ran : ComesTo (s.beginRound series) (s.controller.performRound s.world) _ :=
    comesTo_runBatches rfl
  refine ran.imp ?_
  rintro ⟨outcomes, controller, world⟩ s' ⟨sent, interrupted, told, rfl⟩
  refine ⟨sent, interrupted, told, ?_⟩
  have empty : (s.beginRound series).batches = [] := batches
  rw [empty]
  cases series <;> rfl

theorem endRound_some (interrupted : Bool) (rounds completed : Nat) :
    s.endRound interrupted (some (rounds, completed)) =
      let lap : Lap ω := ⟨s.batches, interrupted⟩
      { s with
        phase := .betweenRounds rounds
          (completed + if lap.outcomes.length = s.controller.tasks.length then 1 else 0)
        laps := s.laps ++ [lap]
        batches := [] } := rfl

theorem comesTo_performRounds {rounds completed : Nat}
    (phase : s.phase = .betweenRounds rounds completed) (batches : s.batches = []) :
    ComesTo s (s.controller.performRounds s.world rounds) fun (count, controller, world) s' =>
      ∃ laps, laps.length ≤ rounds ∧ (controller.shouldHalt = false → laps.length = rounds) ∧
        s' = { s with controller, world, laps := s.laps ++ laps }.respond
          (.summary (controller.summary (completed + count))) := by
  induction rounds generalizing s completed with
  | zero =>
      refine ⟨_, Leads.step (.refl _), [], Nat.le_refl _, fun _ => rfl, ?_⟩
      rw [proceed, phase, List.append_nil]
      rfl
  | succ rounds induction =>
      rw [Controller.performRounds]
      cases halting : s.controller.shouldHalt with
      | true =>
          refine ⟨_, Leads.step (.refl _), [], Nat.zero_le _, ?_, ?_⟩
          · intro going
            cases halting.symm.trans going
          · rw [proceed, phase, List.append_nil]
            exact if_pos halting
      | false =>
          have begins : Leads s (s.beginRound (some (rounds, completed))) := by
            refine Leads.step ?_
            rw [proceed, phase]
            dsimp only
            rw [halting]
            exact .refl _
          refine ComesTo.bind ((comesTo_performRound _ batches).after begins) ?_
          rintro ⟨outcomes, controller, world⟩ s' ran ⟨sent, interrupted, rfl, rfl⟩
          have sameTasks := (Controller.performRound_later ran).tasks
          rw [endRound_some]
          refine (induction rfl rfl).bind ?_
          rintro ⟨count, controller', world'⟩ s' - ⟨laps, few, all, rfl⟩
          refine comesTo_some ⟨⟨sent, interrupted⟩ :: laps, Nat.succ_le_succ few,
            fun going => congrArg (· + 1) (all going), ?_⟩
          dsimp only
          rw [sameTasks, Lap.outcomes, Nat.add_assoc, List.append_assoc, batches]
          rfl

theorem comesTo_perform {command : Command} {commands : List Command} (phase : s.phase = .idle)
    (next : s.commands = command :: commands) (batches : s.batches = []) (laps : s.laps = []) :
    ComesTo s (s.controller.perform command s.world) fun (answer, controller, world) s' =>
      ∃ laps, (s.controller.notReady? = none →
          Errand.Fulfils controller.shouldHalt ⟨laps, answer⟩ command) ∧
        s' = { s with controller, world, commands, errands := s.errands ++ [⟨laps, answer⟩] } := by
  have refuses (fault : Fault) (notReady : s.controller.notReady? = some fault) :
      s.proceed = { s with commands, errands := s.errands ++ [⟨[], .refused fault⟩] } := by
    simp only [proceed, phase, next, notReady, respond, laps]
  cases ready : s.controller.notReady? with
  | some fault =>
      cases command with
      | round | run =>
          simp only [Controller.perform, Controller.runRound, Controller.run, ready]
          exact ⟨_, Leads.step (.refl _), [], nofun, refuses fault ready⟩
  | none =>
      cases command with
      | round =>
          have begins : Leads s (({ s with commands } : Campaign ω).beginRound none) := by
            refine Leads.step ?_
            simp only [proceed, phase, next, ready]
            exact .refl _
          have performed : ComesTo _ (s.controller.performRound s.world) _ :=
            comesTo_performRound (s := { s with commands }) none batches
          simp only [Controller.perform, Controller.runRound, ready, Option.map_map]
          refine (performed.after begins).map ?_
          rintro ⟨outcomes, controller, world⟩ s' ⟨sent, interrupted, rfl, rfl⟩
          refine ⟨[⟨sent, interrupted⟩], fun _ => ⟨_, rfl, rfl⟩, ?_⟩
          simp only [endRound, respond, Lap.outcomes, laps, batches, phase, List.nil_append]
          rfl
      | run rounds =>
          have begins : Leads s ({ s with commands, phase := .betweenRounds rounds 0 }) := by
            refine Leads.step ?_
            simp only [proceed, phase, next, ready]
            exact .refl _
          have performed : ComesTo _ (s.controller.performRounds s.world rounds) _ :=
            comesTo_performRounds (s := { s with commands, phase := .betweenRounds rounds 0 }) rfl batches
          simp only [Controller.perform, Controller.run, ready, Option.map_map]
          refine (performed.after begins).map ?_
          rintro ⟨count, controller, world⟩ s' ⟨performed, few, all, rfl⟩
          refine ⟨performed, fun _ => ⟨⟨_, rfl⟩, few, all⟩, ?_⟩
          simp only [respond, laps, batches, phase, List.nil_append, Nat.zero_add]
          rfl

/-- What a resting campaign comes to with all its commands. -/
theorem comesTo_performAll (phase : s.phase = .idle) (batches : s.batches = [])
    (laps : s.laps = []) :
    ComesTo s (s.controller.performAll s.world s.commands) fun (answers, controller, world) s' =>
      (s'.phase = .idle ∧ s'.commands = []) ∧ s'.controller = controller ∧ s'.world = world ∧
        ∃ errands, s'.errands = s.errands ++ errands ∧ errands.map (·.answer) = answers ∧
          (s.controller.notReady? = none →
            List.Forall₂ (fun command errand => Errand.Fulfils controller.shouldHalt errand command)
              s.commands errands) := by
  generalize waiting : s.commands = commands
  induction commands generalizing s with
  | nil =>
      exact comesTo_some ⟨⟨phase, waiting⟩, rfl, rfl, [], (List.append_nil _).symm, rfl, fun _ => .nil⟩
  | cons command commands induction =>
      rw [Controller.performAll]
      refine (comesTo_perform phase waiting batches laps).bind ?_
      rintro ⟨answer, between, world⟩ s' ran ⟨performed, fulfils, rfl⟩
      have later := induction
        (s := { s with
          controller := between
          world, commands, errands := s.errands ++ [⟨performed, answer⟩] })
        phase batches laps rfl
      refine later.bind ?_
      rintro ⟨answers, controller, world⟩ s' ranLater ⟨finished, rfl, rfl, errands, done, rfl, fulfilled⟩
      refine comesTo_some ⟨finished, rfl, rfl, ⟨performed, answer⟩ :: errands, ?_, rfl, ?_⟩
      · rw [done, List.append_assoc, List.singleton_append]
      · intro ready
        have readyStill := (Controller.perform_later ran).notReady?.trans ready
        exact .cons ((fulfils ready).of_later (Controller.performAll_later ranLater))
          (fulfilled readyStill)

theorem leads_finished (returns : s.controller.Returns) (phase : s.phase = .idle)
    (batches : s.batches = []) (laps : s.laps = []) :
    ∃ s', Leads s s' ∧ s'.phase = .idle ∧ s'.commands = [] := by
  have comes := comesTo_performAll phase batches laps
  obtain ⟨⟨answers, controller, world⟩, performed⟩ :=
    Option.isSome_iff_exists.mp (Controller.performAll_isSome returns s.commands s.world)
  rw [performed] at comes
  obtain ⟨last, leads, finished, -⟩ := comes
  exact ⟨last, leads, finished⟩

end Campaign

end Coordination
