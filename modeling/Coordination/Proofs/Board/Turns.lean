import Coordination.Board.Turns
import Coordination.Proofs.Board.Basic

/-!
Mutual exclusion. Whatever callers do at the locks of a board, however long some of them wait, the
holder of a lock is the owner that took it last and has not given it back since.
-/

namespace Coordination.Turns

/-! One look. -/

section Attempt

variable {b : Board} {a : Attempt} {late : Bool}

theorem attemptOn_of_undeclared (undeclared : b.locks.holder? a.lock = none) :
    attemptOn b a late = (.refused a (.unknownLock b.name a.lock), b) := by
  rw [attemptOn, Board.acquire_of_undeclared undeclared]

theorem attemptOn_of_free (free : b.locks.holder? a.lock = some none) :
    attemptOn b a late =
      (.acquired a.lock a.owner, b.withHolder a.lock (some a.owner) (by simp [free])) := by
  rw [attemptOn, Board.acquire_of_free free]

theorem attemptOn_of_held {holder : String} (held : b.locks.holder? a.lock = some (some holder)) :
    attemptOn b a late =
      match if late then a.timeout else none with
      | none => (.waits a, b)
      | some timeoutMs => (.refused a (.lockNotAcquired b.name a.lock timeoutMs), b) := by
  rw [attemptOn, Board.acquire_of_held held]
  cases (if late then a.timeout else none) <;> rfl

end Attempt

/-! What a notice says about the board before and after. -/

inductive Effect (b : Board) : Notice → Board → Prop where
  | acquired {lock owner : String} (free : b.locks.holder? lock = some none) :
      Effect b (.acquired lock owner) (b.withHolder lock (some owner) (by simp [free]))
  | released {lock owner : String} (held : b.locks.holder? lock = some (some owner)) :
      Effect b (.released lock owner) (b.withHolder lock none (by simp [held]))
  | unchanged {notice : Notice} (quiet : ∀ lock, notice.change? lock = none) : Effect b notice b

theorem effect_attemptOn (b : Board) (a : Attempt) (late : Bool) :
    Effect b (attemptOn b a late).1 (attemptOn b a late).2 := by
  cases found : b.locks.holder? a.lock with
  | none =>
      rw [attemptOn_of_undeclared found]
      exact .unchanged fun _ => rfl
  | some holder =>
      cases holder with
      | none =>
          rw [attemptOn_of_free found]
          exact .acquired found
      | some holder =>
          rw [attemptOn_of_held found]
          cases (if late then a.timeout else none) with
          | none => exact .unchanged fun _ => rfl
          | some timeoutMs => exact .unchanged fun _ => rfl

theorem step_attempt {t : Turns} {event : Event} {a : Attempt} {late : Bool}
    (made : t.attempt? event = some (a, late)) :
    (t.step event).1 = (attemptOn t.board a late).1 ∧
      (t.step event).2.board = (attemptOn t.board a late).2 := by
  cases event with
  | arrive attempt late =>
      cases made
      simp only [step, arrive]
      split <;> simp_all
  | look place late =>
      simp only [attempt?, Option.map_eq_some_iff, Prod.mk.injEq] at made
      obtain ⟨_, waiting, rfl, rfl⟩ := made
      simp only [step, waiting, lookAgain]
      split <;> simp_all
  | release lock owner => cases made
  | ask lock => cases made

/-- An event that makes no attempt finds nobody, gives a lock back or asks for its holder. -/
theorem cases_of_no_attempt {t : Turns} {event : Event} (made : t.attempt? event = none) :
    (t.step event = (.nobody, t) ∧ t.lock? event = none) ∨
      (∃ lock owner, event = .release lock owner) ∨ ∃ lock, event = .ask lock := by
  cases event with
  | arrive attempt late => cases made
  | look place late =>
      have nobody : t.waiting[place]? = none := by simpa [attempt?] using made
      refine .inl ⟨?_, ?_⟩
      · simp only [step, nobody]
      · simp only [lock?, nobody, Option.map_none]
  | release lock owner => exact .inr (.inl ⟨lock, owner, rfl⟩)
  | ask lock => exact .inr (.inr ⟨lock, rfl⟩)

theorem effect_step (t : Turns) (event : Event) :
    Effect t.board (t.step event).1 (t.step event).2.board := by
  cases made : t.attempt? event with
  | some attempt =>
      obtain ⟨notice, board⟩ := step_attempt made
      rw [notice, board]
      exact effect_attemptOn t.board attempt.1 attempt.2
  | none =>
      rcases cases_of_no_attempt made with ⟨nobody, -⟩ | ⟨lock, owner, rfl⟩ | ⟨lock, rfl⟩
      · rw [nobody]
        exact .unchanged fun _ => rfl
      · cases found : t.board.locks.holder? lock with
        | none =>
            simp only [step, Board.release_of_undeclared found]
            exact .unchanged fun _ => rfl
        | some holder =>
            by_cases holds : holder = some owner
            · subst holds
              simp only [step, Board.release_of_holder found]
              exact .released found
            · simp only [step, Board.release_of_other found holds]
              exact .unchanged fun _ => rfl
      · exact .unchanged fun _ => rfl

/-! Each effect changes the holder of at most the lock that its notice names. -/

theorem Effect.holder {b after : Board} {notice : Notice} (effect : Effect b notice after)
    (lock : String) : after.holder lock = (notice.change? lock).elim (b.holder lock) .ok := by
  cases effect with
  | @acquired name owner free =>
      rw [Board.holder_withHolder]
      by_cases same : lock = name
      · simp [Notice.change?, same]
      · simp [Notice.change?, same, Ne.symm same]
  | @released name owner held =>
      rw [Board.holder_withHolder]
      by_cases same : lock = name
      · simp [Notice.change?, same]
      · simp [Notice.change?, same, Ne.symm same]
  | unchanged quiet => rw [quiet lock, Option.elim_none]

theorem Effect.holder_of_acquired {b after : Board} {lock owner : String}
    (effect : Effect b (.acquired lock owner) after) : b.holder lock = .ok none := by
  cases effect with
  | acquired free => exact Board.holder_eq_ok_iff.mpr free
  | unchanged quiet => simp [Notice.change?] at quiet

theorem Effect.holder_of_released {b after : Board} {lock owner : String}
    (effect : Effect b (.released lock owner) after) : b.holder lock = .ok (some owner) := by
  cases effect with
  | released held => exact Board.holder_eq_ok_iff.mpr held
  | unchanged quiet => simp [Notice.change?] at quiet

theorem Effect.board_eq {b after : Board} {notice : Notice} (effect : Effect b notice after)
    (notAcquired : ∀ lock owner, notice ≠ .acquired lock owner)
    (notReleased : ∀ lock owner, notice ≠ .released lock owner) : after = b := by
  cases effect with
  | acquired => exact absurd rfl (notAcquired _ _)
  | released => exact absurd rfl (notReleased _ _)
  | unchanged => rfl

/-! Runs. -/

/-- The holder after a run is the one that the last change gave, or else the one from before. -/
theorem holder_run (t : Turns) (events : List Event) (lock : String) :
    (t.run events).2.board.holder lock =
      (lastChange? lock (t.run events).1).elim (t.board.holder lock) .ok := by
  induction events generalizing t with
  | nil => rfl
  | cons event rest induction =>
      have first := (effect_step t event).holder lock
      have later := induction (t.step event).2
      change ((t.step event).2.run rest).2.board.holder lock =
        ((lastChange? lock ((t.step event).2.run rest).1).or
          ((t.step event).1.change? lock)).elim (t.board.holder lock) .ok
      rw [later, first]
      cases lastChange? lock ((t.step event).2.run rest).1 <;> rfl

/-- Once a lock is held, nobody acquires it before its holder has released it. -/
theorem released_before_acquired {t : Turns} {events : List Event} {lock first second : String}
    {between later : List Notice} (held : t.board.holder lock = .ok (some first))
    (history : (t.run events).1 = between ++ .acquired lock second :: later) :
    .released lock first ∈ between := by
  -- By induction on the events: each of them leaves the lock with its holder, until one releases it.
  induction events generalizing t between with
  | nil => simp [run] at history
  | cons event rest induction =>
      have effect := effect_step t event
      change (t.step event).1 :: ((t.step event).2.run rest).1 = _ at history
      cases between with
      | nil =>
          obtain ⟨notice, -⟩ := List.cons.inj history
          rw [notice] at effect
          have free := effect.holder_of_acquired
          rw [held] at free
          cases free
      | cons notice between =>
          obtain ⟨rfl, following⟩ := List.cons.inj history
          have after := effect.holder lock
          cases changed : (t.step event).1.change? lock with
          | none =>
              rw [changed, Option.elim_none, held] at after
              exact List.mem_cons_of_mem _ (induction after following)
          | some holder =>
              generalize (t.step event).1 = notice at effect changed ⊢
              cases notice with
              | acquired name owner =>
                  simp only [Notice.change?, Option.ite_none_right_eq_some] at changed
                  obtain ⟨rfl, -⟩ := changed
                  have free := effect.holder_of_acquired
                  rw [held] at free
                  cases free
              | released name owner =>
                  simp only [Notice.change?, Option.ite_none_right_eq_some] at changed
                  obtain ⟨rfl, -⟩ := changed
                  have same := effect.holder_of_released
                  rw [held] at same
                  cases same
                  exact List.mem_cons_self
              | _ => simp [Notice.change?] at changed

theorem released_between {t : Turns} {events : List Event} {lock first second : String}
    {earlier between later : List Notice}
    (history : (t.run events).1 =
      earlier ++ .acquired lock first :: (between ++ .acquired lock second :: later)) :
    .released lock first ∈ between := by
  induction events generalizing t earlier with
  | nil => simp [run] at history
  | cons event rest induction =>
      change (t.step event).1 :: ((t.step event).2.run rest).1 = _ at history
      cases earlier with
      | nil =>
          obtain ⟨notice, following⟩ := List.cons.inj history
          have held := (effect_step t event).holder lock
          rw [notice] at held
          simp only [Notice.change?, if_true, Option.elim_some] at held
          exact released_before_acquired held following
      | cons _ earlier => exact induction (List.cons.inj history).2

/-! Steps. -/

/-- What an event may come to at the locks as they stand. -/
structure Lawful (t : Turns) (event : Event) (notice : Notice) (next : Turns) : Prop where
  acquired_iff : ∀ a late, t.attempt? event = some (a, late) →
    (notice = .acquired a.lock a.owner ↔ t.board.holder a.lock = .ok none)
  refused_iff : ∀ a late, t.attempt? event = some (a, late) → ∀ board lock timeoutMs,
    (notice = .refused a (.lockNotAcquired board lock timeoutMs) ↔
      (∃ holder, t.board.holder a.lock = .ok (some holder)) ∧ late = true ∧
        a.timeout = some timeoutMs ∧ board = t.board.name ∧ lock = a.lock)
  released_iff : ∀ lock owner, event = .release lock owner →
    (notice = .released lock owner ↔ t.board.holder lock = .ok (some owner))
  told : ∀ lock, event = .ask lock → notice = .told lock (t.board.holder lock)
  undeclared : ∀ lock, t.lock? event = some lock → t.board.schema.hasLock lock = false →
    notice.fault? = some (.unknownLock t.board.name lock)
  failed_keeps : (∀ lock owner, notice ≠ .acquired lock owner) →
    (∀ lock owner, notice ≠ .released lock owner) → next.board = t.board
  others_keep : ∀ other, t.lock? event ≠ some other →
    next.board.holder other = t.board.holder other

theorem attemptOn_acquired_iff (b : Board) (a : Attempt) (late : Bool) :
    (attemptOn b a late).1 = .acquired a.lock a.owner ↔ b.holder a.lock = .ok none := by
  rw [Board.holder_eq_ok_iff]
  cases found : b.locks.holder? a.lock with
  | none => simp [attemptOn_of_undeclared found]
  | some holder =>
      cases holder with
      | none => simp [attemptOn_of_free found]
      | some holder =>
          rw [attemptOn_of_held found]
          cases (if late then a.timeout else none) <;> simp

theorem attemptOn_refused_iff (b : Board) (a : Attempt) (late : Bool) (board lock : String)
    (timeoutMs : UInt64) :
    (attemptOn b a late).1 = .refused a (.lockNotAcquired board lock timeoutMs) ↔
      (∃ holder, b.holder a.lock = .ok (some holder)) ∧ late = true ∧
        a.timeout = some timeoutMs ∧ board = b.name ∧ lock = a.lock := by
  simp only [Board.holder_eq_ok_iff]
  cases found : b.locks.holder? a.lock with
  | none => simp [attemptOn_of_undeclared found]
  | some holder =>
      cases holder with
      | none => simp [attemptOn_of_free found]
      | some holder =>
          rw [attemptOn_of_held found]
          cases late with
          | false => simp
          | true =>
              cases a.timeout with
              | none => simp
              | some limit => simp [and_comm, and_assoc, eq_comm]

theorem lock_of_change?_attemptOn {b : Board} {a : Attempt} {late : Bool} {lock : String}
    {holder : Option String} (changed : (attemptOn b a late).1.change? lock = some holder) :
    a.lock = lock := by
  cases found : b.locks.holder? a.lock with
  | none => simp [attemptOn_of_undeclared found, Notice.change?] at changed
  | some current =>
      cases current with
      | none =>
          simp only [attemptOn_of_free found, Notice.change?, Option.ite_none_right_eq_some]
            at changed
          exact changed.1
      | some current =>
          rw [attemptOn_of_held found] at changed
          split at changed <;> cases changed

theorem lock?_of_attempt? {t : Turns} {event : Event} {a : Attempt} {late : Bool}
    (made : t.attempt? event = some (a, late)) : t.lock? event = some a.lock := by
  cases event with
  | arrive attempt late =>
      cases made
      rfl
  | look place late =>
      simp only [attempt?, Option.map_eq_some_iff, Prod.mk.injEq] at made
      obtain ⟨_, waiting, rfl, -⟩ := made
      rw [lock?, waiting, Option.map_some]
  | release lock owner => cases made
  | ask lock => cases made

theorem lock?_of_change? {t : Turns} {event : Event} {lock : String} {holder : Option String}
    (changed : (t.step event).1.change? lock = some holder) : t.lock? event = some lock := by
  cases made : t.attempt? event with
  | some attempt =>
      rw [(step_attempt made).1] at changed
      rw [lock?_of_attempt? made, lock_of_change?_attemptOn changed]
  | none =>
      rcases cases_of_no_attempt made with ⟨nobody, -⟩ | ⟨name, owner, rfl⟩ | ⟨name, rfl⟩
      · rw [nobody] at changed
        cases changed
      · simp only [step] at changed
        cases released : t.board.release name owner with
        | error fault => simp [released, Notice.change?] at changed
        | ok board =>
            simp only [released, Notice.change?, Option.ite_none_right_eq_some] at changed
            exact congrArg some changed.1
      · cases changed

theorem fault?_of_undeclared {t : Turns} {event : Event} {lock : String}
    (about : t.lock? event = some lock) (absent : t.board.locks.holder? lock = none) :
    (t.step event).1.fault? = some (.unknownLock t.board.name lock) := by
  cases made : t.attempt? event with
  | some attempt =>
      rw [lock?_of_attempt? made, Option.some.injEq] at about
      subst about
      rw [(step_attempt made).1, attemptOn_of_undeclared absent]
      rfl
  | none =>
      rcases cases_of_no_attempt made with ⟨-, nothing⟩ | ⟨name, owner, rfl⟩ | ⟨name, rfl⟩
      · cases nothing.symm.trans about
      · cases about
        simp only [step, Board.release_of_undeclared absent]
        rfl
      · cases about
        simp only [step, Board.holder_of_undeclared absent]
        rfl

theorem lawful_step (t : Turns) (event : Event) :
    Lawful t event (t.step event).1 (t.step event).2 where
  acquired_iff := by
    intro a late made
    rw [(step_attempt made).1, attemptOn_acquired_iff]
  refused_iff := by
    intro a late made board lock timeoutMs
    rw [(step_attempt made).1, attemptOn_refused_iff]
  released_iff := by
    rintro lock owner rfl
    rw [Board.holder_eq_ok_iff]
    cases found : t.board.locks.holder? lock with
    | none => simp [step, Board.release_of_undeclared found]
    | some holder =>
        by_cases holds : holder = some owner
        · subst holds
          simp [step, Board.release_of_holder found]
        · simp [step, Board.release_of_other found holds, holds]
  told := by
    rintro lock rfl
    rfl
  undeclared := by
    intro lock about unknown
    exact fault?_of_undeclared about (Board.holder?_of_hasLock_false unknown)
  failed_keeps := (effect_step t event).board_eq
  others_keep := by
    intro other notAbout
    rw [(effect_step t event).holder other]
    cases changed : (t.step event).1.change? other with
    | none => rfl
    | some holder => exact absurd (lock?_of_change? changed) notAbout

/-- The holder of a lock is whoever took it last and has not released it since; between two callers
that take it, the first one's owner releases it; and every event is lawful. -/
theorem run_excludes (t : Turns) (events : List Event) :
    (∀ lock, (t.run events).2.board.holder lock =
      (lastChange? lock (t.run events).1).elim (t.board.holder lock) .ok) ∧
    (∀ lock owner, t.board.holder lock = .ok none →
      ((t.run events).2.board.holder lock = .ok (some owner) ↔
        lastChange? lock (t.run events).1 = some (some owner))) ∧
    (∀ lock first second earlier between later,
      (t.run events).1 =
        earlier ++ .acquired lock first :: (between ++ .acquired lock second :: later) →
      .released lock first ∈ between) ∧
    ∀ event, Lawful (t.run events).2 event ((t.run events).2.step event).1
      ((t.run events).2.step event).2 := by
  refine ⟨holder_run t events, ?_, ?_, lawful_step (t.run events).2⟩
  · intro lock owner free
    rw [holder_run, free]
    cases lastChange? lock (t.run events).1 <;> simp
  · intro lock first second earlier between later history
    exact released_between history

end Coordination.Turns
