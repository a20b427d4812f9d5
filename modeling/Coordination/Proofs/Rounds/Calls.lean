import Coordination.Proofs.Rounds.Performance

/-!
What a step adds to the record of a campaign. Nothing stands there but what the workers were called
with and what they reported, and nothing else has been done to the world.
-/

namespace Coordination

namespace Campaign

variable {ω : Type} {s : Campaign ω}

/-! What the steps do to the record. -/

@[simp] theorem ended_respond (answer : Answer) : (s.respond answer).ended = s.ended := by
  simp [ended, respond]

@[simp] theorem sent_respond (answer : Answer) : (s.respond answer).sent = s.sent := by
  rw [sent, sent, ended_respond]
  rfl

@[simp] theorem ended_endRound (interrupted : Bool) (series : Option (Nat × Nat)) :
    (s.endRound interrupted series).ended = s.ended ++ [⟨s.batches, interrupted⟩] := by
  cases series with
  | none =>
      simp only [endRound, ended_respond]
      exact (List.append_assoc _ _ _).symm
  | some series => exact (List.append_assoc _ _ _).symm

@[simp] theorem sent_endRound (interrupted : Bool) (series : Option (Nat × Nat)) :
    (s.endRound interrupted series).sent = s.sent := by
  rw [sent, sent, ended_endRound, List.flatMap_append, List.flatMap_singleton]
  cases series with
  | none => exact List.append_nil _
  | some series => exact List.append_nil _

theorem sent_append (controller : Controller ω) (world : ω) (phase : Phase)
    (batches : List (Batch ω)) :
    ({ s with controller, world, phase, batches := s.batches ++ batches } : Campaign ω).sent =
      s.sent ++ batches := (List.append_assoc _ _ _).symm

theorem sendBatch_cases (s : Campaign ω) (batch : List Nat) (left : List (List Nat))
    (series : Option (Nat × Nat)) :
    (s.controller.runBatch batch s.world = none ∧
        ∃ controller : Controller ω,
          controller = { s.controller with tick := s.controller.tick + batch.length } ∧
          s.sendBatch batch left series = { s with
            controller
            phase := .stuck
            batches := s.batches ++ [⟨s.controller.round, s.controller.assignments batch, []⟩] }) ∨
      ∃ outcomes controller world, s.controller.runBatch batch s.world =
          some (outcomes, controller, world) ∧
        s.sendBatch batch left series = { s with
          controller
          world
          phase := .inRound left series
          batches := s.batches ++
            [⟨s.controller.round, s.controller.assignments batch, outcomes⟩] } := by
  cases ran : s.controller.runBatch batch s.world with
  | none => exact .inl ⟨rfl, _, rfl, by rw [sendBatch, ran]⟩
  | some result =>
      obtain ⟨outcomes, controller, world⟩ := result
      exact .inr ⟨outcomes, controller, world, rfl, by rw [sendBatch, ran]⟩

/-! What a step can do. -/

/-- A step sends nothing and at most begins a round, or it sends a batch and nothing has kept it from
that. -/
theorem proceed_cases (s : Campaign ω) :
    (s.proceed.sent = s.sent ∧ s.proceed.world = s.world ∧
        (s.proceed.phase = .stuck ↔ s.phase = .stuck) ∧
        ∃ round policy, s.proceed.controller = { s.controller with round, policy }) ∨
      ∃ batch left series, s.phase = .inRound (batch :: left) series ∧
        s.controller.shouldHalt = false ∧ s.proceed = s.sendBatch batch left series := by
  have ends (interrupted : Bool) (series : Option (Nat × Nat)) :
      (s.endRound interrupted series).world = s.world ∧
        (s.endRound interrupted series).phase ≠ .stuck ∧
        (s.endRound interrupted series).controller = s.controller := by
    cases series with
    | none | some => exact ⟨rfl, by rintro ⟨⟩, rfl⟩
  cases phase : s.phase with
  | stuck =>
      rw [proceed, phase]
      exact .inl ⟨rfl, rfl, iff_of_true phase rfl, _, _, rfl⟩
  | idle =>
      refine .inl ?_
      rw [proceed, phase]
      cases s.commands with
      | nil => exact ⟨rfl, rfl, iff_of_eq (congrArg (· = _) phase), _, _, rfl⟩
      | cons command commands =>
          dsimp only
          split
          · exact ⟨sent_respond _, rfl, iff_of_false (by rintro ⟨⟩) (by rintro ⟨⟩), _, _, rfl⟩
          · exact ⟨rfl, rfl, iff_of_false (by rintro ⟨⟩) (by rintro ⟨⟩), _, _, rfl⟩
          · exact ⟨rfl, rfl, iff_of_false (by rintro ⟨⟩) (by rintro ⟨⟩), _, _, rfl⟩
  | betweenRounds rounds completed =>
      refine .inl ?_
      rw [proceed, phase]
      cases rounds with
      | zero => exact ⟨sent_respond _, rfl, iff_of_false (by rintro ⟨⟩) (by rintro ⟨⟩), _, _, rfl⟩
      | succ rounds =>
          dsimp only
          split
          · exact ⟨sent_respond _, rfl, iff_of_false (by rintro ⟨⟩) (by rintro ⟨⟩), _, _, rfl⟩
          · exact ⟨rfl, rfl, iff_of_false (by rintro ⟨⟩) (by rintro ⟨⟩), _, _, rfl⟩
  | inRound left series =>
      cases left with
      | nil =>
          rw [proceed_of_through phase]
          obtain ⟨world, moving, controller⟩ := ends false series
          exact .inl ⟨sent_endRound _ _, world, iff_of_false moving (by rintro ⟨⟩), _, _, controller⟩
      | cons batch left =>
          cases halting : s.controller.shouldHalt with
          | true =>
              rw [proceed_of_halting phase halting]
              obtain ⟨world, moving, controller⟩ := ends true series
              exact .inl ⟨sent_endRound _ _, world, iff_of_false moving (by rintro ⟨⟩), _, _, controller⟩
          | false => exact .inr ⟨batch, left, series, rfl, rfl, proceed_of_going phase halting⟩

/-! What was sent, call by call. -/

/-- These batches have brought a world to another, each from where the one before it had left off. -/
inductive Worked : ω → List (Batch ω) → ω → Prop where
  | nothing (world : ω) : Worked world [] world
  | batch {world between after : ω} {batch : Batch ω} {later : List (Batch ω)}
      (performed : Controller.Performed batch.round world batch.assignments batch.outcomes between)
      (worked : Worked between later after) : Worked world (batch :: later) after

variable {world : ω}

theorem Worked.concat {between last : ω} {batches : List (Batch ω)} {batch : Batch ω}
    (worked : Worked world batches between)
    (performed : Controller.Performed batch.round between batch.assignments batch.outcomes last) :
    Worked world (batches ++ [batch]) last := by
  induction worked with
  | nothing => exact .batch performed (.nothing last)
  | batch first _ induction => exact .batch first (induction performed)

/-- The world is as the calls on record have left it. A campaign is stuck over a call that gives
nothing, in the last batch that was sent. -/
structure Accounted (world : ω) (s : Campaign ω) : Prop where
  worked : s.phase ≠ .stuck → Worked world s.sent s.world
  hangs : s.phase = .stuck → ∃ earlier last, s.sent = earlier ++ [last] ∧
    Worked world earlier s.world ∧ Controller.Hangs s.world last.assignments ∧ last.outcomes = []

theorem accounted_start (c : Controller ω) (world : ω) (commands : List Command) :
    Accounted world (start c world commands) := ⟨fun _ => .nothing world, nofun⟩

theorem Accounted.stop (accounted : Accounted world s) : Accounted world s.stop :=
  ⟨accounted.worked, accounted.hangs⟩

theorem Accounted.proceed (accounted : Accounted world s) : Accounted world s.proceed := by
  rcases s.proceed_cases with ⟨sent, sameWorld, stuck, -⟩ | ⟨batch, left, series, phase, -, sends⟩
  · refine ⟨fun moving => ?_, fun isStuck => ?_⟩
    · rw [sent, sameWorld]
      exact accounted.worked fun was => moving (stuck.mpr was)
    · rw [sent, sameWorld]
      exact accounted.hangs (stuck.mp isStuck)
  · have worked := accounted.worked (by rw [phase]; nofun)
    rw [sends]
    rcases sendBatch_cases s batch left series with
      ⟨ran, controller, -, result⟩ | ⟨outcomes, controller, last, ran, result⟩
    · rw [result]
      refine ⟨fun moving => absurd rfl moving, fun _ => ?_⟩
      exact ⟨s.sent, _, sent_append .., worked, Controller.hangs_of_runBatch ran, rfl⟩
    · rw [result]
      refine ⟨fun _ => ?_, nofun⟩
      rw [sent_append]
      exact worked.concat (Controller.performed_of_runBatch ran)

theorem Accounted.after (accounted : Accounted world s) (moves : List Move) :
    Accounted world (s.after moves) := by
  induction moves generalizing s with
  | nil => exact accounted
  | cons move moves induction =>
      cases move with
      | stop => exact induction accounted.stop
      | proceed => exact induction accounted.proceed

end Campaign

end Coordination
