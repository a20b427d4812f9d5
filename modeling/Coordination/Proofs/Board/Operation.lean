import Coordination.Board.Operation
import Coordination.Proofs.Board.Frame

/-! What operations leave behind on a board and on its host. -/

namespace Coordination

/-! An operation leaves the same board, with the same schema. -/

theorem Operation.continues_answered {b after : Board} {α : Type} {answer : α → Answer} {a : Answer}
    {result : Except Fault (α × Board)}
    (continues : ∀ x changed, result = .ok (x, changed) → Host.Continues b changed)
    (done : some (answered answer result) = some (.ok (a, after))) : Host.Continues b after := by
  simp only [Option.some.injEq, answered, map_eq_ok_iff] at done
  obtain ⟨⟨x, changed⟩, ok, same⟩ := done
  cases same
  exact continues x _ ok

theorem Host.continues_applyCounter {b after : Board} {operation : Counter → Int64 × Counter}
    {id : CounterId} {answer : Int64} (applied : b.applyCounter operation id = .ok (answer, after)) :
    Continues b after := by
  obtain ⟨counters, rfl, -⟩ := applyCounter_confined applied
  exact ⟨rfl, rfl⟩

theorem Host.continues_acquire {b after : Board} {name owner : String} {timeout : Option UInt64}
    {answer : Answer}
    (acquired : (b.acquire name owner timeout).map (Operation.done <$> ·) =
      some (.ok (answer, after))) :
    Continues b after := by
  simp only [Option.map_eq_some_iff, map_eq_ok_iff] at acquired
  obtain ⟨_, acquired, changed, rfl, same⟩ := acquired
  cases same
  obtain ⟨locks, rfl, -⟩ := acquire_confined acquired
  exact ⟨rfl, rfl⟩

theorem Operation.continues_onBoard {owner : String} {lockTimeout : Option UInt64} {b after : Board}
    {operation : Operation} {answer : Answer}
    (done : operation.onBoard owner lockTimeout b = some (.ok (answer, after))) :
    Host.Continues b after := by
  cases operation with
  | increment id | incrementBy id | decrement id | incrementAndRead id | addAndRead id | zero id =>
      exact continues_answered (fun _ _ => Host.continues_applyCounter) done
  | setIfLarger id candidate =>
      refine continues_answered (fun larger changed raised => ?_) done
      rw [Board.raiseCounter_eq] at raised
      obtain ⟨⟨previous, _⟩, applied, same⟩ := map_eq_ok_iff.mp raised
      cases same
      exact Host.continues_applyCounter applied
  | read id =>
      simp only [onBoard, Option.some.injEq, map_eq_ok_iff] at done
      obtain ⟨value, -, same⟩ := done
      cases same
      exact ⟨rfl, rfl⟩
  | lock name => exact Host.continues_acquire done
  | lockWithin name timeoutMs => exact Host.continues_acquire done
  | unlock name =>
      simp only [onBoard, Option.some.injEq, map_eq_ok_iff] at done
      obtain ⟨changed, released, same⟩ := done
      cases same
      obtain ⟨locks, rfl, -⟩ := Host.release_confined released
      exact ⟨rfl, rfl⟩
  | readAll | put | get | containsKey | clear | size | snapshot =>
      cases done
      exact ⟨rfl, rfl⟩

theorem Host.keeps_operate {h after : Host} {name owner : String} {lockTimeout : Option UInt64}
    {operation : Operation} {answer : Except Fault Answer}
    (operated : h.operate name owner lockTimeout operation = some (answer, after)) :
    h.Keeps after := by
  unfold operate at operated
  cases hosted : h.board name with
  | error fault =>
      rw [hosted] at operated
      cases operated
      exact h.keeps_refl
  | ok b =>
      simp only [hosted, Option.map_eq_some_iff] at operated
      obtain ⟨result, done, committed⟩ := operated
      cases result with
      | error fault =>
          cases committed
          exact h.keeps_refl
      | ok direct =>
          cases committed
          have found := board_eq_ok_iff.mp hosted
          obtain rfl := h.named name b found
          exact keeps_replaceBoard found (Operation.continues_onBoard done)

/-! Taking a lock and giving it back. -/

section Lock

variable {b : Board} {name : String}

theorem Operation.onBoard_lock_of_undeclared (undeclared : b.locks.holder? name = none)
    (owner : String) (timeout : Option UInt64) :
    (Operation.lock name).onBoard owner timeout b =
      some (.error (.unknownLock b.name name)) := by
  rw [onBoard, Board.acquire_of_undeclared undeclared]
  rfl

theorem Operation.onBoard_lock_of_free (free : b.locks.holder? name = some none)
    (owner : String) (timeout : Option UInt64) :
    (Operation.lock name).onBoard owner timeout b =
      some (.ok (.done, b.withHolder name (some owner) (by simp [free]))) := by
  rw [onBoard, Board.acquire_of_free free]
  rfl

theorem Operation.onBoard_unlock_of_holder {owner : String}
    (holds : b.locks.holder? name = some (some owner)) (timeout : Option UInt64) :
    (Operation.unlock name).onBoard owner timeout b =
      some (.ok (.done, b.withHolder name none (by simp [holds]))) := by
  rw [onBoard, Board.release_of_holder holds]
  rfl

theorem Operation.onBoard_lock_of_held {holder : String}
    (held : b.locks.holder? name = some (some holder)) (owner : String) (timeout : Option UInt64) :
    (Operation.lock name).onBoard owner timeout b =
      timeout.map fun timeoutMs => .error (.lockNotAcquired b.name name timeoutMs) := by
  rw [onBoard, Board.acquire_of_held held]
  cases timeout <;> rfl

end Lock

end Coordination
