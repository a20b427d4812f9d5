import Coordination.Board.Basic
import Coordination.Proofs.InPlace
import Coordination.Proofs.Table

/-!
What the operations of a board do to its counters, its map and its locks. In place they spare the board
where they fail, so they come to what their forms as values say.
-/

namespace Coordination

namespace Locks

variable {declared : List String}

/-! A lock is undeclared, free or held, and that alone decides what comes of taking it. -/

theorem acquire_of_undeclared {locks : Locks declared} {name : String}
    (undeclared : locks.holder? name = none) (owner : String) :
    locks.acquire name owner = .undeclared := by
  unfold acquire
  split <;> simp_all

theorem acquire_of_free {locks : Locks declared} {name : String}
    (free : locks.holder? name = some none) (owner : String) :
    locks.acquire name owner = .granted (locks.withHolder name (some owner) (by simp [free])) := by
  unfold acquire
  split <;> simp_all

theorem acquire_of_held {locks : Locks declared} {name holder : String}
    (held : locks.holder? name = some (some holder)) (owner : String) :
    locks.acquire name owner = .held := by
  unfold acquire
  split <;> simp_all

theorem release_of_undeclared {locks : Locks declared} {name : String}
    (undeclared : locks.holder? name = none) (owner : String) :
    locks.release name owner = .undeclared := by
  unfold release
  split <;> simp_all

theorem release_of_holder {locks : Locks declared} {name owner : String}
    (holds : locks.holder? name = some (some owner)) :
    locks.release name owner = .released (locks.withHolder name none (by simp [holds])) := by
  unfold release
  split
  · simp_all
  · rename_i holder found
    rw [holds] at found
    cases found
    simp

theorem release_of_other {locks : Locks declared} {name owner : String} {holder : Option String}
    (found : locks.holder? name = some holder) (other : holder ≠ some owner) :
    locks.release name owner = .notHeld := by
  unfold release
  split <;> simp_all

end Locks

namespace Counters

variable {count : Nat}

theorem change?_of_lt {counters : Counters count} {id : CounterId}
    (bound : id.number.toNat < count) (operation : Counter → Int64 × Counter) :
    counters.change? operation id =
      some ((operation counters[id.number.toNat]).1,
        counters.set id.number.toNat (operation counters[id.number.toNat]).2) := by
  simp [change?, bound]

theorem change?_of_le {counters : Counters count} {id : CounterId}
    (outside : count ≤ id.number.toNat) (operation : Counter → Int64 × Counter) :
    counters.change? operation id = none := by
  simp [change?, Nat.not_lt.mpr outside]

theorem read?_change?_of_ne {counters after : Counters count} {id other : CounterId}
    {operation : Counter → Int64 × Counter} {answer : Int64}
    (changed : counters.change? operation id = some (answer, after)) (apart : other ≠ id) :
    after.read? other = counters.read? other := by
  have numbersApart : id.number.toNat ≠ other.number.toNat := by
    intro same
    apply apart
    cases id
    cases other
    simpa [UInt16.toNat_inj, eq_comm] using same
  by_cases bound : id.number.toNat < count
  · rw [change?_of_lt bound] at changed
    cases changed
    simp [read?, numbersApart]
  · rw [change?_of_le (Nat.not_lt.mp bound)] at changed
    cases changed

theorem read?_fresh (count : Nat) (id : CounterId) :
    (fresh count).read? id = if id.number.toNat < count then some 0 else none := by
  simp only [read?, fresh, Vector.getElem?_replicate]
  split <;> rfl

end Counters

namespace Board

/-- The same board with another holder of one lock. -/
def withHolder (b : Board) (name : String) (next : Option String)
    (isDeclared : (b.locks.holder? name).isSome) : Board :=
  { b with locks := b.locks.withHolder name next isDeclared }

theorem holder_eq_ok_iff {b : Board} {name : String} {holder : Option String} :
    b.holder name = .ok holder ↔ b.locks.holder? name = some holder := by
  unfold Board.holder
  cases b.locks.holder? name <;> simp

theorem holder_of_undeclared {b : Board} {name : String}
    (undeclared : b.locks.holder? name = none) :
    b.holder name = .error (.unknownLock b.name name) := by
  rw [Board.holder, undeclared]

theorem holder_withHolder (b : Board) {name : String} (next : Option String)
    (isDeclared : (b.locks.holder? name).isSome) (other : String) :
    (b.withHolder name next isDeclared).holder other =
      if other = name then .ok next else b.holder other := by
  simp only [Board.holder, withHolder, Locks.holder?_withHolder]
  by_cases same : other = name <;> simp [same]

theorem holder?_withHolder_self (b : Board) {name : String} (next : Option String)
    (isDeclared : (b.locks.holder? name).isSome) :
    (b.withHolder name next isDeclared).locks.holder? name = some next :=
  (b.locks.holder?_withHolder next isDeclared name).trans (if_pos rfl)

theorem holder?_of_hasLock_false {b : Board} {name : String}
    (undeclared : b.schema.hasLock name = false) : b.locks.holder? name = none := by
  have known := b.locks.isSome_holder? name
  rw [show b.schema.locks.contains name = false from undeclared] at known
  simpa using known

/-! Counters. -/

theorem on_changeCounter (b : Board) (operation : Counter → Int64 × Counter) (id : CounterId) :
    (changeCounter operation id).on b =
      match b.counters.change? operation id with
      | some (answer, counters) => (.ok answer, { b with counters })
      | none => (.error (.unregisteredCounter b.name id.number), b) := by
  rw [changeCounter, InPlace.on_get_bind]
  cases b.counters.change? operation id <;> rfl

theorem applyCounter_eq (b : Board) (operation : Counter → Int64 × Counter) (id : CounterId) :
    b.applyCounter operation id =
      match b.counters.change? operation id with
      | some (answer, counters) => .ok (answer, { b with counters })
      | none => .error (.unregisteredCounter b.name id.number) := by
  rw [applyCounter, InPlace.value, on_changeCounter]
  cases b.counters.change? operation id <;> rfl

theorem spares_changeCounter (b : Board) (operation : Counter → Int64 × Counter) (id : CounterId) :
    (changeCounter operation id).Spares b
      fun answer after => b.applyCounter operation id = .ok (answer, after) := by
  unfold InPlace.Spares
  rw [on_changeCounter, applyCounter_eq]
  cases b.counters.change? operation id <;> rfl

theorem raiseCounter_eq (b : Board) (id : CounterId) (candidate : Int64) :
    b.raiseCounter id candidate =
      (fun (previous, after) => (decide (previous < candidate), after)) <$>
        b.applyCounter (·.raise candidate) id :=
  InPlace.value_bind_pure (changeCounter (·.raise candidate) id)
    (fun previous => decide (previous < candidate)) b

theorem spares_counterRaise (b : Board) (id : CounterId) (candidate : Int64) :
    (counterRaise id candidate).Spares b
      fun larger after => b.raiseCounter id candidate = .ok (larger, after) := by
  refine InPlace.Spares.bind_pure ((spares_changeCounter b _ id).mono ?_)
  intro previous after applied
  rw [raiseCounter_eq, applied, map_ok]

theorem applyCounter_of_undeclared {b : Board} {operation : Counter → Int64 × Counter}
    {id : CounterId} (undeclared : b.schema.hasCounter id = false) :
    b.applyCounter operation id = .error (.unregisteredCounter b.name id.number) := by
  have outside : b.schema.counterCount ≤ id.number.toNat := by
    simpa [Schema.hasCounter] using undeclared
  rw [applyCounter_eq, Counters.change?_of_le outside]

theorem applyCounter_of_declared {b : Board} {id : CounterId}
    (declared : b.schema.hasCounter id = true) (operation : Counter → Int64 × Counter) :
    ∃ answer after, b.applyCounter operation id = .ok (answer, after) := by
  have inside : id.number.toNat < b.schema.counterCount := by
    simpa [Schema.hasCounter] using declared
  rw [applyCounter_eq, Counters.change?_of_lt inside]
  exact ⟨_, _, rfl⟩

theorem readCounter_of_lt {b : Board} {id : CounterId}
    (inside : id.number.toNat < b.schema.counterCount) :
    b.readCounter id = .ok b.counters[id.number.toNat].value := by
  simp [readCounter, Counters.read?, inside]

theorem readCounter_of_undeclared {b : Board} {id : CounterId}
    (undeclared : b.schema.hasCounter id = false) :
    b.readCounter id = .error (.unregisteredCounter b.name id.number) := by
  have outside : b.schema.counterCount ≤ id.number.toNat := by
    simpa [Schema.hasCounter] using undeclared
  simp [readCounter, Counters.read?, outside]

theorem fault_of_applyCounter {b : Board} {operation : Counter → Int64 × Counter} {id : CounterId}
    {fault : Fault} (failed : b.applyCounter operation id = .error fault) :
    fault = .unregisteredCounter b.name id.number := by
  rw [applyCounter_eq] at failed
  split at failed
  · cases failed
  · cases failed
    rfl

theorem fault_of_readCounter {b : Board} {id : CounterId} {fault : Fault}
    (failed : b.readCounter id = .error fault) : fault = .unregisteredCounter b.name id.number := by
  unfold readCounter at failed
  split at failed
  · cases failed
  · cases failed
    rfl

/-! Locks. -/

theorem on_lock (b : Board) (name owner : String) (timeout : Option UInt64) :
    (lock name owner timeout).on b =
      match b.locks.acquire name owner, timeout with
      | .undeclared, _ => (.error (.unknownLock b.name name), b)
      | .granted locks, _ => (.ok true, { b with locks })
      | .held, none => (.ok false, b)
      | .held, some timeoutMs => (.error (.lockNotAcquired b.name name timeoutMs), b) := by
  rw [lock, InPlace.on_get_bind]
  cases b.locks.acquire name owner with
  | undeclared => rfl
  | granted locks => rfl
  | held => cases timeout <;> rfl

theorem acquire_eq (b : Board) (name owner : String) (timeout : Option UInt64) :
    b.acquire name owner timeout =
      match b.locks.acquire name owner with
      | .granted locks => some (.ok { b with locks })
      | .held => timeout.map fun timeoutMs => .error (.lockNotAcquired b.name name timeoutMs)
      | .undeclared => some (.error (.unknownLock b.name name)) := by
  rw [acquire, InPlace.value, on_lock]
  cases b.locks.acquire name owner with
  | undeclared => rfl
  | granted locks => rfl
  | held => cases timeout <;> rfl

/-- Taking a lock leaves the board as it was, too, where it has to be waited for. -/
theorem spares_lock (b : Board) (name owner : String) (timeout : Option UInt64) :
    (lock name owner timeout).Spares b fun taken after =>
      if taken then b.acquire name owner timeout = some (.ok after)
      else after = b ∧ b.acquire name owner timeout = none := by
  unfold InPlace.Spares
  rw [on_lock, acquire_eq]
  cases b.locks.acquire name owner with
  | undeclared => rfl
  | granted locks => rfl
  | held =>
      cases timeout with
      | none => exact ⟨rfl, rfl⟩
      | some timeoutMs => rfl

theorem on_unlock (b : Board) (name owner : String) :
    (unlock name owner).on b =
      match b.locks.release name owner with
      | .undeclared => (.error (.unknownLock b.name name), b)
      | .released locks => (.ok ⟨⟩, { b with locks })
      | .notHeld => (.error (.lockNotHeld b.name name owner), b) := by
  rw [unlock, InPlace.on_get_bind]
  cases b.locks.release name owner <;> rfl

theorem release_eq (b : Board) (name owner : String) :
    b.release name owner =
      match b.locks.release name owner with
      | .released locks => .ok { b with locks }
      | .notHeld => .error (.lockNotHeld b.name name owner)
      | .undeclared => .error (.unknownLock b.name name) := by
  rw [release, InPlace.final, InPlace.value, on_unlock]
  cases b.locks.release name owner <;> rfl

theorem spares_unlock (b : Board) (name owner : String) :
    (unlock name owner).Spares b fun _ after => b.release name owner = .ok after := by
  unfold InPlace.Spares
  rw [on_unlock, release_eq]
  cases b.locks.release name owner <;> rfl

variable {b : Board} {name : String}

theorem acquire_of_undeclared (undeclared : b.locks.holder? name = none) (owner : String)
    (timeout : Option UInt64) :
    b.acquire name owner timeout = some (.error (.unknownLock b.name name)) := by
  rw [acquire_eq, Locks.acquire_of_undeclared undeclared]

theorem acquire_of_free (free : b.locks.holder? name = some none) (owner : String)
    (timeout : Option UInt64) :
    b.acquire name owner timeout =
      some (.ok (b.withHolder name (some owner) (by simp [free]))) := by
  rw [acquire_eq, Locks.acquire_of_free free]
  rfl

theorem acquire_of_held {holder : String} (held : b.locks.holder? name = some (some holder))
    (owner : String) (timeout : Option UInt64) :
    b.acquire name owner timeout =
      timeout.map fun timeoutMs => .error (.lockNotAcquired b.name name timeoutMs) := by
  rw [acquire_eq, Locks.acquire_of_held held]

theorem release_of_undeclared (undeclared : b.locks.holder? name = none) (owner : String) :
    b.release name owner = .error (.unknownLock b.name name) := by
  rw [release_eq, Locks.release_of_undeclared undeclared]

theorem release_of_holder {owner : String} (holds : b.locks.holder? name = some (some owner)) :
    b.release name owner = .ok (b.withHolder name none (by simp [holds])) := by
  rw [release_eq, Locks.release_of_holder holds]
  rfl

theorem release_of_other {owner : String} {holder : Option String}
    (found : b.locks.holder? name = some holder) (other : holder ≠ some owner) :
    b.release name owner = .error (.lockNotHeld b.name name owner) := by
  rw [release_eq, Locks.release_of_other found other]

theorem fault_of_release {owner : String} {holder : Option String}
    (found : b.locks.holder? name = some holder) {fault : Fault}
    (failed : b.release name owner = .error fault) : fault = .lockNotHeld b.name name owner := by
  by_cases holds : holder = some owner
  · subst holds
    rw [release_of_holder found] at failed
    cases failed
  · rw [release_of_other found holds] at failed
    cases failed
    rfl

theorem fault_of_acquire {owner : String} {timeout : Option UInt64} {holder : Option String}
    (found : b.locks.holder? name = some holder) {fault : Fault}
    (failed : b.acquire name owner timeout = some (.error fault)) :
    ∃ timeoutMs, fault = .lockNotAcquired b.name name timeoutMs := by
  cases holder with
  | none =>
      rw [acquire_of_free found] at failed
      cases failed
  | some holder =>
      rw [acquire_of_held found] at failed
      obtain ⟨timeoutMs, -, same⟩ := Option.map_eq_some_iff.mp failed
      cases same
      exact ⟨timeoutMs, rfl⟩

end Board

end Coordination
