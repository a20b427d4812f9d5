import Coordination.Board.Work
import Coordination.Proofs.Board.Course

/-!
Work under a lock. It is not begun unless the lock is taken; and however it ends, whatever it and others
have done with the lock meanwhile, its owner does not hold the lock afterwards, and nobody else has lost
one.
-/

namespace Coordination

def Fleet.holder? (fleet : Fleet) (place : Nat) (name lock : String) : Option (Option String) :=
  (fleet.board? place name).bind fun b => b.locks.holder? lock

theorem Fleet.holder?_of_board? {fleet : Fleet} {place : Nat} {name : String} {b : Board}
    (hosted : fleet.board? place name = some b) (lock : String) :
    fleet.holder? place name lock = b.locks.holder? lock := by
  rw [holder?, hosted, Option.bind_some]

/-! On the board. -/

namespace Operation

variable {b after : Board} {lock owner : String} {lockTimeout : Option UInt64} {answer : Answer}

theorem holder?_onBoard_lock
    (done : (Operation.lock lock).onBoard owner lockTimeout b = some (.ok (answer, after))) :
    b.locks.holder? lock = some none ∧ after.locks.holder? lock = some (some owner) := by
  cases found : b.locks.holder? lock with
  | none => cases done.symm.trans (onBoard_lock_of_undeclared found owner lockTimeout)
  | some holder =>
      cases holder with
      | none =>
          cases done.symm.trans (onBoard_lock_of_free found owner lockTimeout)
          exact ⟨rfl, b.holder?_withHolder_self _ _⟩
      | some holder =>
          rw [onBoard_lock_of_held found] at done
          cases lockTimeout <;> cases done

theorem holder?_onBoard_unlock
    (done : (Operation.unlock lock).onBoard owner lockTimeout b = some (.ok (answer, after))) :
    b.locks.holder? lock = some (some owner) ∧ ∀ other,
      after.locks.holder? other = if other = lock then some none else b.locks.holder? other := by
  cases found : b.locks.holder? lock with
  | none =>
      rw [onBoard, Board.release_of_undeclared found] at done
      cases done
  | some holder =>
      by_cases holds : holder = some owner
      · subst holds
        cases done.symm.trans (onBoard_unlock_of_holder found lockTimeout)
        exact ⟨rfl, b.locks.holder?_withHolder none (by simp [found])⟩
      · rw [onBoard, Board.release_of_other found holds] at done
        cases done

end Operation

theorem Host.perform_lock_granted {host : Host} {name : String} {b after : Board}
    (hosted : host.boards.get? name = some b) {lock owner : String} {timeout : Option UInt64}
    (acquired : b.acquire lock owner timeout = some (.ok after)) :
    host.perform Method.lock.name
        [.string name, .string lock, .string owner, Handle.timeoutJson timeout] =
      some (.answer (.ok .null) (host.replaceBoard after)) := by
  rw [Handle.perform_lock hosted, acquired, Option.map_some]

/-! Through a handle. -/

namespace Handle

open Work (settled)

variable {ω α : Type} {h : Handle ω} {lock : String} {world : ω}

/-- An operation on a lock has nothing to say but that it is done. -/
theorem run_done {access : Access ω Unit} {world : ω} {result : Option (Except Fault Answer × ω)}
    (ran : ((fun _ => Answer.done) <$> access).run.run world = result) :
    access.run.run world = result.map fun (answer, after) => ((fun _ => ()) <$> answer, after) := by
  rw [← ran, ExceptT.run_map, StateT.run_map]
  rcases access.run.run world with _ | ⟨fault | _, after⟩ <;> rfl

theorem withLock_waits (waits : (h.lock lock).run.run world = none) (body : Access ω α) :
    (h.withLock lock body).run.run world = none := by
  rw [withLock, ExceptT.run_bind, StateT.run_bind, waits]
  rfl

theorem withLock_refused {fault : Fault} {after : ω}
    (refused : (h.lock lock).run.run world = some (.error fault, after)) (body : Access ω α) :
    (h.withLock lock body).run.run world = some (.error fault, after) := by
  rw [withLock, ExceptT.run_bind, StateT.run_bind, refused]
  rfl

theorem withLock_taken {locked after last : ω} {body : Access ω α} {result : Except Fault α}
    {unlocked : Except Fault Unit} (taken : (h.lock lock).run.run world = some (.ok (), locked))
    (ran : body.run.run locked = some (result, after))
    (givenBack : (h.unlock lock).run.run after = some (unlocked, last)) :
    (h.withLock lock body).run.run world =
      some (settled result ((fun _ => .done) <$> unlocked), last) := by
  rw [withLock, ExceptT.run_bind, StateT.run_bind, taken]
  change ((ExceptT.lift body.run >>= _ : Access ω α).run.run locked) = _
  rw [ExceptT.run_bind, ExceptT.run_lift, bind_map_left, StateT.run_bind, ran]
  change ((ExceptT.lift (h.unlock lock).run >>= _ : Access ω α).run.run after) = _
  rw [ExceptT.run_bind, ExceptT.run_lift, bind_map_left, StateT.run_bind, givenBack]
  cases result <;> cases unlocked <;> rfl

/-- The lock has been asked back. -/
structure GivesBack (h : Handle Fleet) (place : Nat) (lock : String) (before : Fleet)
    (unlocked : Except Fault Unit) (after : Fleet) : Prop where
  ran : (h.unlock lock).run.run before = some (unlocked, after)
  free : after.holder? place h.name lock ≠ some (some h.clientId)
  kept : ∀ there name other owner, owner ≠ h.clientId →
    before.holder? there name other = some (some owner) →
      after.holder? there name other = some (some owner)
  succeeds : unlocked = .ok () ↔ before.holder? place h.name lock = some (some h.clientId)

end Handle

namespace Federation

variable {services : List Service} {log : List (Event × Finding)} {s : Federation} {process : Nat}
  {name : String} {transport : Transport} {handle : Handle Fleet} {route : Route} {lock : String}

theorem Sound.givesBack (sound : Sound log s) (uses : s.Uses process name transport handle route)
    (carried : (Operation.unlock lock).CarriedBy handle route s.fleet) :
    ∃ unlocked last, handle.GivesBack route.place lock s.fleet unlocked last := by
  obtain ⟨rfl, b, hosted, -⟩ := sound.behind uses
  have holder := Fleet.holder?_of_board? hosted
  cases sound.performs uses carried hosted with
  | waits waits => cases waits
  | failed fault last fails ran hosts =>
      have same place board other :
          last.holder? place board other = s.fleet.holder? place board other := by
        simp only [Fleet.holder?, Fleet.board?, hosts]
      have notHeld : s.fleet.holder? route.place handle.name lock ≠ some (some handle.clientId) := by
        intro holds
        rw [holder] at holds
        cases fails.symm.trans (Operation.onBoard_unlock_of_holder holds handle.lockTimeout)
      refine ⟨_, last, Handle.run_done ran, ?_, ?_, iff_of_false (by simp) notHeld⟩
      · rwa [same]
      · intro place board other owner _ held
        rwa [same]
  | done _ next last done ran boards =>
      obtain ⟨holds, locks⟩ := Operation.holder?_onBoard_unlock done
      have now place board other : last.holder? place board other =
          if (place = route.place ∧ board = handle.name) ∧ other = lock then some none
          else s.fleet.holder? place board other := by
        rw [Fleet.holder?, boards]
        by_cases here : place = route.place ∧ board = handle.name
        · obtain ⟨rfl, rfl⟩ := here
          simp only [and_self, true_and, if_true, Option.bind_some, locks, holder]
        · rw [if_neg here, if_neg (fun both => here both.1), Fleet.holder?]
      refine ⟨.ok (), last, Handle.run_done ran, ?_, ?_, iff_of_true rfl ((holder lock).trans holds)⟩
      · rw [now, if_pos ⟨⟨rfl, rfl⟩, rfl⟩]
        simp
      · intro place board other owner apart held
        rw [now, if_neg, held]
        rintro ⟨⟨rfl, rfl⟩, rfl⟩
        cases held.symm.trans ((holder other).trans holds)
        exact apart rfl

/-- A lock that has not come to be held leaves nothing to do; work is done under one that has, and then
the lock is asked back, whoever holds it by then. -/
theorem withLock_gives_back (reached : Reached services log s)
    (uses : s.Uses process name transport handle route)
    (carried : (Operation.lock lock).CarriedBy handle route s.fleet) :
    ((handle.lock lock).run.run s.fleet = none ∧
        ∀ {α : Type} (body : Access Fleet α), (handle.withLock lock body).run.run s.fleet = none) ∨
      (∃ fault refused, (handle.lock lock).run.run s.fleet = some (.error fault, refused) ∧
        refused.hosts = s.fleet.hosts ∧
          ∀ {α : Type} (body : Access Fleet α),
            (handle.withLock lock body).run.run s.fleet = some (.error fault, refused)) ∨
      ∃ locked, (handle.lock lock).run.run s.fleet = some (.ok (), locked) ∧
        s.fleet.holder? route.place name lock = some none ∧
        locked.holder? route.place name lock = some (some handle.clientId) ∧
        ∀ {α : Type} (body : Access Fleet α) result incidents after,
          body.run.run locked = some (result, after.fleet) →
            Course { s with fleet := locked } incidents after →
            (Operation.unlock lock).CarriedBy handle route after.fleet →
              ∃ unlocked last outcome,
                (handle.withLock lock body).run.run s.fleet = some (outcome, last) ∧
                  handle.GivesBack route.place lock after.fleet unlocked last ∧
                  (∀ fault, result = .error fault → outcome = .error fault) ∧
                  (∀ a fault, result = .ok a → unlocked = .error fault → outcome = .error fault) ∧
                  ∀ a, outcome = .ok a ↔ result = .ok a ∧ unlocked = .ok () := by
  obtain ⟨named, b, hosted, -⟩ := reached.sound.behind uses
  cases reached.sound.performs uses carried hosted with
  | waits _ ran =>
      have waits := Handle.run_done ran
      exact .inl ⟨waits, Handle.withLock_waits waits⟩
  | failed fault refused _ ran hosts =>
      have fails := Handle.run_done ran
      exact .inr (.inl ⟨fault, refused, fails, hosts, Handle.withLock_refused fails⟩)
  | done _ next locked done ran boards =>
      have taken := Handle.run_done ran
      obtain ⟨free, held⟩ := Operation.holder?_onBoard_lock done
      have there := boards route.place name
      rw [if_pos ⟨rfl, named.symm⟩] at there
      refine .inr (.inr ⟨locked, taken, (Fleet.holder?_of_board? hosted lock).trans free,
        (Fleet.holder?_of_board? there lock).trans held, ?_⟩)
      intro α body result incidents after ended course carriedBack
      obtain ⟨_, reachedLocked⟩ := reached.performed uses carried ran
      obtain ⟨_, reachedAfter⟩ := course.reached reachedLocked
      obtain ⟨unlocked, last, givesBack⟩ :=
        reachedAfter.sound.givesBack (course.uses reachedLocked uses) carriedBack
      refine ⟨unlocked, last, _, Handle.withLock_taken taken ended givesBack.ran, givesBack, ?_⟩
      cases result <;> cases unlocked <;> simp [Work.settled]

/-- A process beside the board gives the lock back too early, and one at a distance takes it; the first
fails then, with the lock in the other's hands. -/
theorem withLock_gives_back_to_far :
    let failure : Fault := .invalidConfiguration "no"
    ∃ log s handle other last, Reached [⟨"node", "handler"⟩] log s ∧
      s.Uses 0 "B" .inProcess handle ⟨0, .inProcess⟩ ∧
      s.Uses 1 "B" .tcp other ⟨0, .tcp "127.0.0.1:4000" 0⟩ ∧
      (handle.withLock "door" (do
        handle.unlock "door"
        other.lock "door"
        (throw failure : Access Fleet Unit))).run.run s.fleet = some (.error failure, last) ∧
      last.holder? 0 "B" "door" = some (some "far") := by
  intro failure
  let schema : Schema := ⟨[], ["door"]⟩
  let free : Board := .fresh "B" schema
  let held (owner : String) : Board := free.withHolder "door" (some owner) rfl
  let nearRoute : Route := ⟨0, .inProcess⟩
  let farRoute : Route := ⟨0, .tcp "127.0.0.1:4000" 0⟩
  let handle := near.makeHandle "B" schema nearRoute
  let other := (far "127.0.0.1:4000").makeHandle "B" schema farRoute
  have conveys : (Host.empty.replaceBoard free).Conveys Host.Method.attach.name
      (Host.attachArguments "B" schema) := Host.conveys_attach (by decide +kernel) (by decide +kernel)
  obtain ⟨log, s, reached, near, far, hosted⟩ := reached_in_common conveys
  have takes : Operation.onBoard "near" none free (.lock "door") =
    some (.ok (.done, held "near")) := rfl
  have gives : Operation.onBoard "near" none (held "near") (.unlock "door") =
    some (.ok (.done, free)) := rfl
  have acquires : free.acquire "door" "far" none = some (.ok (held "far")) := rfl
  have takesFar : Operation.onBoard "far" none free (.lock "door") =
    some (.ok (.done, held "far")) := rfl
  obtain ⟨locked, course, ran, hosted⟩ :=
    Course.nothing.done reached near (fun _ _ _ => trivial) hosted takes
  obtain ⟨_, reachedLocked⟩ := course.reached reached
  obtain ⟨given, early, ranEarly, hosted⟩ := Course.nothing.done reachedLocked
    (course.uses reached near) (fun _ _ _ => trivial) hosted gives
  have carried : Operation.CarriedBy (.lock "door") other farRoute given :=
    Operation.carriedBy_answered hosted
      (fun _ hosted => ⟨_, Host.perform_lock_granted hosted acquires⟩)
      (.invoke ⟨trivial, trivial, trivial, trivial, trivial⟩
        (by decide : 0 + 2 < Message.nestingBudget) (by decide +kernel))
      (.reply trivial (by decide : 0 + 1 < Message.nestingBudget) (by decide +kernel))
  obtain ⟨after, early, ranFar, hosted⟩ := early.done reachedLocked
    (early.uses reachedLocked (course.uses reached far)) carried hosted takesFar
  have taken := Handle.run_done ran
  have ended : (do
      handle.unlock "door"
      other.lock "door"
      throw failure : Access Fleet Unit).run.run locked = some (.error failure, after) := by
    rw [ExceptT.run_bind, StateT.run_bind, Handle.run_done ranEarly]
    change (other.lock "door" >>= fun _ => throw failure : Access Fleet Unit).run.run given = _
    rw [ExceptT.run_bind, StateT.run_bind, Handle.run_done ranFar]
    rfl
  rcases withLock_gives_back reached near (fun _ _ _ => trivial) with
    ⟨waits, -⟩ | ⟨_, _, refused, -⟩ | ⟨_, takenToo, -, -, works⟩
  · cases taken.symm.trans waits
  · cases taken.symm.trans refused
  · cases taken.symm.trans takenToo
    obtain ⟨_, last, _, worked, givesBack, failed, -, -⟩ :=
      works _ _ _ _ ended early (fun _ _ _ => trivial)
    rw [failed failure rfl] at worked
    have kept := givesBack.kept 0 "B" "door" "far" (by decide)
      ((Fleet.holder?_of_board? hosted "door").trans rfl)
    exact ⟨log, s, handle, other, last, reached, near, far, worked, kept⟩

end Federation

end Coordination
