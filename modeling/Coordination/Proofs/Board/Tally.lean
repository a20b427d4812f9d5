import Coordination.Board.Tally
import Coordination.Proofs.Board.Frame

/-!
An entry to count in: how others leave it that spare it, and what is left to do of a call in each of
its phases.
-/

namespace Coordination.Tally

variable {t : Tally}

theorem shown_of_hosted {host : Host} {b : Board} (hosted : host.boards.get? t.board = some b) :
    t.shown host = b.entries.get? (keyText t.key) := by
  rw [shown, hosted]
  rfl

/-! Others that spare the entry and its lock. -/

/-- The same board with the same entry and the same holder of the lock. -/
structure Untouched (t : Tally) (before after : Board) : Prop where
  continues : Host.Continues before after
  entry : after.entries.get? (keyText t.key) = before.entries.get? (keyText t.key)
  holder : after.locks.holder? t.lock = before.locks.holder? t.lock

theorem untouched_refl (b : Board) : Untouched t b b := ⟨⟨rfl, rfl⟩, rfl, rfl⟩

theorem untouched_of_confined {found : Host.Method} {args : List Json} {before after : Board}
    (spared : t.Spared found.name args) (here : args[0]? = some (.string t.board))
    (confined : Host.Confined found args before after) : Untouched t before after := by
  obtain ⟨notClear, notPut, notLock⟩ := spared here
  refine ⟨confined.continues, ?_, ?_⟩
  · cases found with
    | mapPut =>
        obtain ⟨key, entries, given, rfl, others⟩ := confined
        apply others
        rintro rfl
        exact notPut rfl given
    | mapClear => exact absurd rfl notClear
    | counterAdd | counterRaise | counterZero | lock | unlock =>
        obtain ⟨_, _, _, rfl, _⟩ := confined
        rfl
    | attach | counterRead | counterReadAll | mapGet | mapContains | mapSize | mapSnapshot =>
        obtain rfl := confined
        rfl
  · cases found with
    | lock | unlock =>
        obtain ⟨name, locks, given, rfl, others⟩ := confined
        apply others
        rintro rfl
        exact notLock (by decide) given
    | mapClear => exact absurd rfl notClear
    | counterAdd | counterRaise | counterZero | mapPut =>
        obtain ⟨_, _, _, rfl, _⟩ := confined
        rfl
    | attach | counterRead | counterReadAll | mapGet | mapContains | mapSize | mapSnapshot =>
        obtain rfl := confined
        rfl

theorem untouched_of_perform {host after : Host} {b : Board} {method : String} {args : List Json}
    {outcome : Except Refusal Json} {millis : Nat} (hosted : host.boards.get? t.board = some b)
    (spared : t.Spared method args)
    (performed : host.perform method args = some ⟨.answered outcome, after, millis⟩) :
    ∃ next, after.boards.get? t.board = some next ∧ Untouched t b next := by
  rcases Host.within_perform performed with rfl | ⟨found, rfl, name, given, others, atName⟩
  · exact ⟨b, hosted, untouched_refl b⟩
  · by_cases same : t.board = name
    · subst same
      rw [hosted] at atName
      obtain ⟨next, nextHosted, confined⟩ := atName
      exact ⟨next, nextHosted, untouched_of_confined spared given confined⟩
    · exact ⟨b, (others t.board same).trans hosted, untouched_refl b⟩

/-! Numbers in the entry. -/

/-- What the entry holds after so many successful calls. It wraps round where adding one does. -/
def numeral (n : Nat) : Option Json := if n = 0 then none else some (Host.intJson (Int64.ofNat n))

theorem numeral_succ (n : Nat) : numeral (n + 1) = some (Host.intJson (Int64.ofNat n + 1)) := by
  rw [numeral, if_neg n.succ_ne_zero, Int64.ofNat_add]
  rfl

theorem shownNumber_numeral (n : Nat) :
    Work.shownNumber (.found (numeral n)) = .ok (Int64.ofNat n) := by
  cases n with
  | zero => rfl
  | succ n =>
      rw [numeral, if_neg n.succ_ne_zero]
      simp only [Work.shownNumber, Handle.decoded, Host.intJson, Json.Decoder.int64_integer]
      rfl

theorem numeral_of_lt {n : Nat} (small : n < 2 ^ 63) :
    numeral n = if n = 0 then none else some (.integer n) := by
  rw [numeral, Host.intJson, Int64.toInt_ofNat_of_lt small]

/-! The phases of a call. -/

inductive Phase where
  | reading
  | writing
  | leaving
  deriving DecidableEq

/-- What is left to do of a call in this phase, when `n` calls have succeeded. -/
def Phase.rest (t : Tally) (n : Nat) : Phase → Work Unit
  | .reading => (Work.countUp t.key).andThen (.giveBack t.lock)
  | .writing =>
      .operate (.put t.key (Host.intJson (Int64.ofNat n + 1))) fun put =>
        .giveBack t.lock ((fun _ => ()) <$> put)
  | .leaving => .giveBack t.lock (.ok ())

theorem putNext_numeral (t : Tally) (n : Nat) :
    (Work.putNext t.key (.ok (.found (numeral n)))).andThen (.giveBack t.lock) =
      Phase.writing.rest t n := by
  rw [Work.putNext, ok_bind, shownNumber_numeral]
  rfl

theorem Phase.rest_ne_work (phase : Phase) (n : Nat) : phase.rest t n ≠ t.work := by
  intro same
  cases phase <;> cases (Work.operate.inj same).1

theorem work_eq (t : Tally) :
    t.work = .operate (.lock t.lock) fun
      | .error fault => .ended (.error fault)
      | .ok _ => Phase.reading.rest t 0 := rfl

end Coordination.Tally
