import Coordination.Proofs.Board.Counters
import Coordination.Proofs.Board.Course

/-!
A counter that is only counted up and raised never goes back. The numbers that it hands out ascend,
whatever it is raised to in between, and raising it comes to the greatest candidate in any order.
-/

namespace Coordination

/-! What operations do to the level of a counter, without regard to the width of a word. -/

namespace Operation

/-- If the operation may change a counter at all, it counts it up or raises it. -/
def Ascends (id : CounterId) : Operation → Prop
  | .increment other | .decrement other | .incrementBy other _ | .zero other => other ≠ id
  | .addAndRead other delta => other = id → 1 ≤ delta
  | .incrementAndRead _ | .read _ | .setIfLarger .. | .readAll | .put .. | .get _ | .containsKey _
  | .clear | .size | .snapshot | .lock _ | .lockWithin .. | .unlock _ => True

instance (id : CounterId) (operation : Operation) : Decidable (operation.Ascends id) :=
  match operation with
  | .increment other | .decrement other | .incrementBy other _ | .zero other =>
      inferInstanceAs (Decidable (other ≠ id))
  | .addAndRead other delta => inferInstanceAs (Decidable (other = id → 1 ≤ delta))
  | .incrementAndRead _ | .read _ | .setIfLarger .. | .readAll | .put .. | .get _ | .containsKey _
  | .clear | .size | .snapshot | .lock _ | .lockWithin .. | .unlock _ => isTrue trivial

def candidate? (id : CounterId) : Operation → Option Int64
  | .setIfLarger other candidate => if other = id then some candidate else none
  | _ => none

def level (id : CounterId) (n : Int) (operation : Operation) : Int :=
  match operation.candidate? id, operation.delta? id with
  | some candidate, _ => max n candidate.toInt
  | none, some delta => n + delta.toInt
  | none, none => n

end Operation

namespace Transcript

def level (id : CounterId) (n : Int) (operations : List Operation) : Int :=
  operations.foldl (Operation.level id) n

def candidates (id : CounterId) (operations : List Operation) : List Int64 :=
  operations.filterMap (Operation.candidate? id)

def handed? (id : CounterId) : Operation × Answer → Option Int64
  | (operation, .number n) => if (operation.delta? id).isSome then some n else none
  | _ => none

/-- The numbers that were told to those who counted up, in order. -/
def handedOut (id : CounterId) (t : Transcript) : List Int64 := t.filterMap (handed? id)

end Transcript

namespace Operation

variable {id : CounterId} {b after : Board} {owner : String} {lockTimeout : Option UInt64}
  {operation : Operation} {answer : Answer} {n : Int64}

theorem one_le_of_delta? (ascends : operation.Ascends id) {delta : Int64}
    (adds : operation.delta? id = some delta) : 1 ≤ delta.toInt := by
  cases operation with
  | addAndRead other amount =>
      obtain ⟨same, isAmount⟩ := Option.ite_none_right_eq_some.mp adds
      cases isAmount
      exact Int64.le_iff_toInt_le.mp (ascends same)
  | incrementAndRead other =>
      obtain ⟨-, isOne⟩ := Option.ite_none_right_eq_some.mp adds
      cases isOne
      decide
  | increment | decrement | incrementBy =>
      obtain ⟨same, -⟩ := Option.ite_none_right_eq_some.mp adds
      exact absurd same ascends
  | _ => cases adds

theorem tells_of_delta? (ascends : operation.Ascends id) (adds : (operation.delta? id).isSome) :
    operation.Tells id := by
  obtain ⟨delta, adds⟩ := Option.isSome_iff_exists.mp adds
  cases operation with
  | addAndRead | incrementAndRead => exact (Option.ite_none_right_eq_some.mp adds).1
  | increment | decrement | incrementBy =>
      exact absurd (Option.ite_none_right_eq_some.mp adds).1 ascends
  | _ => cases adds

theorem candidate?_of_delta? {delta : Int64} (adds : operation.delta? id = some delta) :
    operation.candidate? id = none := by
  cases operation with
  | setIfLarger => cases adds
  | _ => rfl

theorem eq_setIfLarger_of_candidate? {candidate : Int64}
    (raises : operation.candidate? id = some candidate) : operation = .setIfLarger id candidate := by
  cases operation with
  | setIfLarger other =>
      obtain ⟨rfl, isCandidate⟩ := Option.ite_none_right_eq_some.mp raises
      cases isCandidate
      rfl
  | _ => cases raises

theorem not_overwrites (ascends : operation.Ascends id) (silent : operation.candidate? id = none) :
    ¬ operation.Overwrites id := by
  cases operation with
  | setIfLarger other => exact fun same => nomatch (if_pos same).symm.trans silent
  | zero other => exact ascends
  | _ => exact not_false

theorem le_level (ascends : operation.Ascends id) (n : Int) : n ≤ operation.level id n := by
  unfold level
  split
  · exact le_max_left _ _
  · rename_i adds
    have positive := one_le_of_delta? ascends adds
    omega
  · exact le_rfl

/-- What an operation makes of a counter that shows `n`, and what it answers. -/
structure Rises (id : CounterId) (n : Int64) (operation : Operation) (answer : Answer) (m : Int64) :
    Prop where
  level : m.toInt = operation.level id n.toInt
  told : operation.Tells id → answer = .number m
  raises : ∀ candidate, operation.candidate? id = some candidate →
    answer = .truth (decide (n < candidate)) ∧ m = if n < candidate then candidate else n

theorem rises_setIfLarger {candidate : Int64}
    (done : (setIfLarger id candidate).onBoard owner lockTimeout b = some (.ok (answer, after)))
    (shown : b.counters.read? id = some n) :
    ∃ m, after.counters.read? id = some m ∧ Rises id n (.setIfLarger id candidate) answer m := by
  simp only [onBoard, Option.some.injEq, answered, Board.raiseCounter_eq, map_eq_ok_iff] at done
  obtain ⟨_, ⟨⟨previous, _⟩, raised, rfl⟩, same⟩ := done
  cases same
  obtain ⟨counter, before, rfl, later⟩ := Board.read?_applyCounter_self raised
  cases shown.symm.trans before
  have raises : (setIfLarger id candidate).candidate? id = some candidate := if_pos rfl
  refine ⟨_, later, ?_, False.elim, ?_⟩
  · rw [level, raises, Counter.raise]
    simp only [Int64.lt_iff_toInt_lt]
    split <;> omega
  · intro other raisesOther
    cases raises.symm.trans raisesOther
    exact ⟨rfl, rfl⟩

theorem rises_onBoard (done : operation.onBoard owner lockTimeout b = some (.ok (answer, after)))
    (ascends : operation.Ascends id) (shown : b.counters.read? id = some n)
    (fits : operation.level id n.toInt < 2 ^ 63) :
    ∃ m, after.counters.read? id = some m ∧ Rises id n operation answer m := by
  cases raises : operation.candidate? id with
  | some candidate =>
      obtain rfl := eq_setIfLarger_of_candidate? raises
      exact rises_setIfLarger done shown
  | none =>
      have added := adds_onBoard done (not_overwrites ascends raises)
      have later := added.value
      rw [shown, Option.map_some] at later
      have sum : (n + (operation.delta? id).getD 0).toInt = operation.level id n.toInt := by
        rw [level, raises] at fits ⊢
        cases adds : operation.delta? id with
        | none => simp
        | some delta =>
            have positive := one_le_of_delta? ascends adds
            have least := n.le_toInt
            simp only [adds] at fits
            rw [Option.getD_some, Int64.toInt_add, Int.bmod_eq_of_le] <;> omega
      refine ⟨_, later, sum, ?_, fun _ raisesOther => nomatch raises.symm.trans raisesOther⟩
      intro tells
      obtain ⟨k, rfl, told⟩ := added.told tells
      cases told.symm.trans later
      rfl

/-- Reading a counter, counting it up or raising it cannot fail. -/
theorem answered_of_shown (concerns : operation.Tells id ∨ (operation.candidate? id).isSome)
    (shown : b.counters.read? id = some n) (owner : String) (lockTimeout : Option UInt64) :
    ∃ answer after, operation.onBoard owner lockTimeout b = some (.ok (answer, after)) := by
  rcases concerns with tells | raises
  · cases operation with
    | read other =>
        cases tells
        rw [onBoard, Board.readCounter, shown]
        exact ⟨_, _, rfl⟩
    | incrementAndRead other =>
        cases tells
        have adds : (incrementAndRead id).delta? id = some 1 := if_pos rfl
        obtain ⟨direct, done⟩ := answered_of_delta? adds shown owner lockTimeout
        exact ⟨direct.1, direct.2, done⟩
    | addAndRead other delta =>
        cases tells
        have adds : (addAndRead id delta).delta? id = some delta := if_pos rfl
        obtain ⟨direct, done⟩ := answered_of_delta? adds shown owner lockTimeout
        exact ⟨direct.1, direct.2, done⟩
    | _ => cases tells
  · obtain ⟨candidate, raises⟩ := Option.isSome_iff_exists.mp raises
    obtain rfl := eq_setIfLarger_of_candidate? raises
    have bound : id.number.toNat < b.schema.counterCount := by
      by_contra outside
      simp [Counters.read?, Nat.not_lt.mp outside] at shown
    rw [onBoard, Board.raiseCounter_eq, Board.applyCounter_eq, Counters.change?_of_lt bound]
    exact ⟨_, _, rfl⟩

namespace Rises

variable {m : Int64}

theorem le (rises : Rises id n operation answer m) (ascends : operation.Ascends id) : n ≤ m := by
  rw [Int64.le_iff_toInt_le, rises.level]
  exact le_level ascends n.toInt

theorem adds (rises : Rises id n operation answer m) (ascends : operation.Ascends id)
    (adds : (operation.delta? id).isSome) : answer = .number m ∧ n < m := by
  refine ⟨rises.told (tells_of_delta? ascends adds), ?_⟩
  obtain ⟨delta, adds⟩ := Option.isSome_iff_exists.mp adds
  have positive := one_le_of_delta? ascends adds
  rw [Int64.lt_iff_toInt_lt, rises.level, Operation.level, candidate?_of_delta? adds, adds]
  exact Int.lt_add_of_pos_right _ (by omega)

end Rises

end Operation

/-! Many operations. -/

namespace Transcript

variable {id : CounterId}

theorem handedOut_concat (t : Transcript) (entry : Operation × Answer) :
    handedOut id (t ++ [entry]) = handedOut id t ++ (handed? id entry).toList := by
  cases handed : handed? id entry <;> simp [handedOut, handed]

/-- What a counter has come to that showed `n` at first and shows `m` now. -/
structure Risen (id : CounterId) (n : Int64) (t : Transcript) (m : Int64) : Prop where
  level : m.toInt = level id n.toInt t.operations
  le : n ≤ m
  increasing : (handedOut id t).Pairwise (· < ·)
  between : ∀ k ∈ handedOut id t, n < k ∧ k ≤ m
  told : ∀ (earlier : Transcript) operation answer, earlier ++ [(operation, answer)] <+: t →
    operation.Tells id → ∃ k, answer = .number k ∧
      k.toInt = Transcript.level id n.toInt (operations (earlier ++ [(operation, answer)]))
  flagged : ∀ (earlier : Transcript) candidate answer,
    earlier ++ [(.setIfLarger id candidate, answer)] <+: t →
      answer = .truth (decide (Transcript.level id n.toInt earlier.operations < candidate.toInt))

theorem risen_nothing (id : CounterId) (n : Int64) : Risen id n [] n where
  level := rfl
  le := Int64.le_refl n
  increasing := .nil
  between _ member := nomatch member
  told earlier _ _ here := by simp at here
  flagged earlier _ _ here := by simp at here

theorem level_concat (id : CounterId) (n : Int) (operations : List Operation) (operation : Operation) :
    level id n (operations ++ [operation]) = operation.level id (level id n operations) := by
  rw [level, level, List.foldl_append, List.foldl_cons, List.foldl_nil]

theorem Risen.concat {n m k : Int64} {t : Transcript} {operation : Operation} {answer : Answer}
    (risen : Risen id n t m) (ascends : operation.Ascends id)
    (rises : operation.Rises id m answer k) : Risen id n (t ++ [(operation, answer)]) k := by
  have le := rises.le ascends
  have comes : k.toInt = Transcript.level id n.toInt (operations (t ++ [(operation, answer)])) := by
    rw [operations_concat, level_concat, ← risen.level]
    exact rises.level
  have last : ∀ told ∈ (handed? id (operation, answer)).toList, m < told ∧ told = k := by
    intro told member
    have handed := Option.mem_toList.mp member
    unfold handed? at handed
    split at handed
    · rename_i entry
      obtain ⟨adds, isTold⟩ := Option.ite_none_right_eq_some.mp handed
      cases entry
      cases isTold
      obtain ⟨number, above⟩ := rises.adds ascends adds
      cases number
      exact ⟨above, rfl⟩
    · cases handed
  refine ⟨comes, Int64.le_trans risen.le le, ?_, ?_, ?_, ?_⟩
  · rw [handedOut_concat, List.pairwise_append]
    refine ⟨risen.increasing, ?_, ?_⟩
    · cases handed? id (operation, answer) with
      | none => exact .nil
      | some told => exact List.pairwise_singleton _ told
    · intro earlier before told now
      exact Int64.lt_of_le_of_lt (risen.between earlier before).2 (last told now).1
  · intro told member
    rw [handedOut_concat, List.mem_append] at member
    rcases member with before | now
    · exact ⟨(risen.between told before).1, Int64.le_trans (risen.between told before).2 le⟩
    · obtain ⟨above, rfl⟩ := last told now
      exact ⟨Int64.lt_of_le_of_lt risen.le above, Int64.le_refl told⟩
  · intro earlier performed told here tells
    rcases List.prefix_concat_iff.mp here with same | further
    · obtain ⟨earlierSame, lastSame⟩ := List.append_inj' same rfl
      cases lastSame
      rw [earlierSame]
      exact ⟨k, rises.told tells, comes⟩
    · exact risen.told earlier performed told further tells
  · intro earlier candidate told here
    rcases List.prefix_concat_iff.mp here with same | further
    · obtain ⟨earlierSame, lastSame⟩ := List.append_inj' same rfl
      cases lastSame
      rw [earlierSame, ← risen.level, (rises.raises candidate (if_pos rfl)).1]
      exact congrArg Answer.truth (decide_eq_decide.mpr Int64.lt_iff_toInt_lt)
    · exact risen.flagged earlier candidate told further

/-! Raising alone. -/

theorem level_isGreatest {n : Int} {operations : List Operation}
    (silent : ∀ operation ∈ operations, operation.delta? id = none) :
    level id n operations ∈ n :: (candidates id operations).map Int64.toInt ∧
      ∀ k ∈ n :: (candidates id operations).map Int64.toInt, k ≤ level id n operations := by
  induction operations generalizing n with
  | nil => simp [level, candidates]
  | cons operation rest induction =>
      obtain ⟨now, later⟩ := List.forall_mem_cons.mp silent
      obtain ⟨member, greatest⟩ := @induction (operation.level id n) later
      change level id (operation.level id n) rest ∈ _ ∧
        ∀ k ∈ _, k ≤ level id (operation.level id n) rest
      rw [List.forall_mem_cons] at greatest
      obtain ⟨first, others⟩ := greatest
      cases raises : operation.candidate? id with
      | none =>
          have stays : operation.level id n = n := by rw [Operation.level, raises, now]
          have none : candidates id (operation :: rest) = candidates id rest :=
            List.filterMap_cons_none raises
          rw [stays] at member first others ⊢
          rw [none]
          exact ⟨member, List.forall_mem_cons.mpr ⟨first, others⟩⟩
      | some candidate =>
          have climbs : operation.level id n = max n candidate.toInt := by rw [Operation.level, raises]
          have one : candidates id (operation :: rest) = candidate :: candidates id rest :=
            List.filterMap_cons_some raises
          rw [climbs] at member first others ⊢
          rw [one, List.map_cons]
          constructor
          · rcases List.mem_cons.mp member with same | among
            · rw [same]
              rcases max_choice n candidate.toInt with left | right
              · rw [left]
                exact List.mem_cons_self
              · rw [right]
                exact List.mem_cons_of_mem _ List.mem_cons_self
            · exact List.mem_cons_of_mem _ (List.mem_cons_of_mem _ among)
          · exact List.forall_mem_cons.mpr ⟨(le_max_left _ _).trans first,
              List.forall_mem_cons.mpr ⟨(le_max_right _ _).trans first, others⟩⟩

theorem level_lt_of_silent {n : Int64} {operations : List Operation}
    (silent : ∀ operation ∈ operations, operation.delta? id = none) :
    level id n.toInt operations < 2 ^ 63 := by
  have member := (level_isGreatest (n := n.toInt) silent).1
  rw [← List.map_cons, List.mem_map] at member
  obtain ⟨k, -, same⟩ := member
  exact same ▸ k.toInt_lt

theorem Risen.isGreatest {n m : Int64} {t : Transcript} (risen : Risen id n t m)
    (silent : ∀ operation ∈ t.operations, operation.delta? id = none) :
    m ∈ n :: candidates id t.operations ∧ ∀ k ∈ n :: candidates id t.operations, k ≤ m := by
  obtain ⟨member, greatest⟩ := level_isGreatest (n := n.toInt) silent
  rw [← risen.level, ← List.map_cons] at member greatest
  constructor
  · exact (List.mem_map_of_injective fun _ _ => Int64.toInt_inj.mp).mp member
  · intro k candidate
    exact Int64.le_iff_toInt_le.mpr (greatest _ (List.mem_map_of_mem candidate))

/-- Whatever the order, raising comes to the same. -/
theorem Risen.eq_of_perm {n m k : Int64} {t reordered : Transcript} (risen : Risen id n t m)
    (again : Risen id n reordered k) (perm : reordered.operations.Perm t.operations)
    (silent : ∀ operation ∈ t.operations, operation.delta? id = none) : k = m := by
  obtain ⟨among, greatest⟩ := risen.isGreatest silent
  obtain ⟨alsoAmong, alsoGreatest⟩ :=
    again.isGreatest fun operation member => silent operation (perm.mem_iff.mp member)
  have same : (n :: candidates id reordered.operations).Perm (n :: candidates id t.operations) :=
    (perm.filterMap _).cons n
  exact Int64.le_antisymm (greatest k (same.mem_iff.mp alsoAmong))
    (alsoGreatest m (same.mem_iff.mpr among))

end Transcript

theorem Board.Undergoes.risen {before after : Board} {t : Transcript} {id : CounterId} {n : Int64}
    (undergone : before.Undergoes t after) (shown : before.counters.read? id = some n)
    (ascends : ∀ operation ∈ t.operations, operation.Ascends id)
    (fits : Transcript.level id n.toInt t.operations < 2 ^ 63) :
    ∃ m, after.counters.read? id = some m ∧ Transcript.Risen id n t m := by
  induction undergone with
  | nothing => exact ⟨n, shown, Transcript.risen_nothing id n⟩
  | @operation earlier b after _ _ operation _ undergone done induction =>
      rw [Transcript.operations_concat] at ascends fits
      obtain ⟨before, last⟩ := List.forall_mem_append.mp ascends
      have ascends := last operation (List.mem_singleton_self operation)
      rw [Transcript.level_concat] at fits
      obtain ⟨now, shown, risen⟩ := induction before ((Operation.le_level ascends _).trans_lt fits)
      rw [← risen.level] at fits
      obtain ⟨m, later, rises⟩ := Operation.rises_onBoard done ascends shown fits
      exact ⟨m, later, risen.concat ascends rises⟩

/-! Through handles. -/

def Fleet.counter? (fleet : Fleet) (place : Nat) (name : String) (id : CounterId) : Option Int64 :=
  (fleet.board? place name).bind fun b => b.counters.read? id

namespace Federation

open Transcript

/-- A counter that processes read, count up and raise, through whatever handles: it never goes back, the
numbers that it hands out are all different and ascend, and a process learns whether its candidate was
larger than what was there. Raising alone comes to the greatest candidate. None of this can fail. -/
theorem counter_ascends {services : List Service} {log : List (Event × Finding)}
    {s next : Federation} (reached : Reached services log s) {incidents : List Incident}
    (course : Course s incidents next) {place : Nat} {name : String} {id : CounterId} {n : Int64}
    (spare : ∀ incident ∈ incidents, incident.Spares place name)
    (shown : s.fleet.counter? place name id = some n)
    (ascends : ∀ operation ∈ (ofIncidents place name incidents).operations, operation.Ascends id)
    (fits : level id n.toInt (ofIncidents place name incidents).operations < 2 ^ 63) :
    ∃ m, next.fleet.counter? place name id = some m ∧
      Risen id n (ofIncidents place name incidents) m ∧
      ((∀ operation ∈ (ofIncidents place name incidents).operations, operation.delta? id = none) →
        let candidates := candidates id (ofIncidents place name incidents).operations
        (m ∈ n :: candidates ∧ ∀ k ∈ n :: candidates, k ≤ m) ∧
          ∀ others other, Course s others other → (∀ incident ∈ others, incident.Spares place name) →
            (ofIncidents place name others).operations.Perm
              (ofIncidents place name incidents).operations →
            other.fleet.counter? place name id = some m) ∧
      ∀ process transport handle route (operation : Operation),
        next.Uses process name transport handle route →
        route.place = place → operation.CarriedBy handle route next.fleet → operation.Ascends id →
        (operation.Tells id ∨ (operation.candidate? id).isSome) →
        operation.level id m.toInt < 2 ^ 63 →
          ∃ answer k fleet,
            (operation.perform handle).run.run next.fleet = some (.ok answer, fleet) ∧
              fleet.counter? place name id = some k ∧ operation.Rises id m answer k := by
  obtain ⟨b, hosted, read⟩ := Option.bind_eq_some_iff.mp shown
  obtain ⟨after, later, undergone⟩ := course.undergoes reached hosted spare
  obtain ⟨m, comes, risen⟩ := undergone.risen read ascends fits
  have shows : next.fleet.counter? place name id = some m := by rw [Fleet.counter?, later]; exact comes
  refine ⟨m, shows, risen, ?_, ?_⟩
  · intro silent candidates
    have greatest := risen.isGreatest silent
    refine ⟨greatest, ?_⟩
    intro others other alsoCourse alsoSpare perm
    have alsoAscends operation member := ascends operation (perm.mem_iff.mp member)
    have alsoSilent operation member := silent operation (perm.mem_iff.mp member)
    obtain ⟨last, there, alsoUndergone⟩ := alsoCourse.undergoes reached hosted alsoSpare
    obtain ⟨k, ends, alsoRisen⟩ :=
      alsoUndergone.risen read alsoAscends (level_lt_of_silent alsoSilent)
    rw [Fleet.counter?, there, ← risen.eq_of_perm alsoRisen perm silent]
    exact ends
  · intro process transport handle route operation uses here carried alsoAscends concerns alsoFits
    subst here
    obtain ⟨_, reachedNext⟩ := course.reached reached
    obtain ⟨answer, last, onBoard⟩ :=
      Operation.answered_of_shown concerns comes handle.clientId handle.lockTimeout
    obtain ⟨k, ends, rises⟩ := Operation.rises_onBoard onBoard alsoAscends comes alsoFits
    obtain ⟨fleet, -, ran, there⟩ := Course.nothing.done reachedNext uses carried later onBoard
    refine ⟨answer, k, fleet, ran, ?_, rises⟩
    rw [Fleet.counter?, there]
    exact ends

/-- A process beside the board and one at a distance take turns; in the end a candidate is only as large
as what is there. -/
theorem counter_ascends_near_and_far :
    ∃ log s incidents next, Reached [⟨"node", "handler"⟩] log s ∧ Course s incidents next ∧
      (ofIncidents 0 "B" incidents).map Prod.snd = [.truth true, .number 7, .number 8, .truth false] ∧
      s.fleet.counter? 0 "B" ⟨0⟩ = some 0 ∧ next.fleet.counter? 0 "B" ⟨0⟩ = some 8 := by
  let schema : Schema := ⟨["round"], []⟩
  let shows (n : Int64) : Board := ⟨"B", schema, #v[⟨n⟩], .empty, .ofNames []⟩
  have conveys : (Host.empty.replaceBoard (.fresh "B" schema)).Conveys Host.Method.attach.name
      (Host.attachArguments "B" schema) := Host.conveys_attach (by decide +kernel) (by decide +kernel)
  let route : Route := ⟨0, .tcp "127.0.0.1:4000" 0⟩
  let handle := (far "127.0.0.1:4000").makeHandle "B" schema route
  obtain ⟨log, s, reached, near, far, hosted⟩ := reached_in_common conveys
  have raises : Operation.onBoard "near" none (shows 0) (.setIfLarger ⟨0⟩ 5) =
    some (.ok (.truth true, shows 5)) := rfl
  have adds : Operation.onBoard "near" none (shows 5) (.addAndRead ⟨0⟩ 2) =
    some (.ok (.number 7, shows 7)) := rfl
  have counts : Operation.onBoard "far" none (shows 7) (.incrementAndRead ⟨0⟩) =
    some (.ok (.number 8, shows 8)) := rfl
  have stays : Operation.onBoard "near" none (shows 8) (.setIfLarger ⟨0⟩ 8) =
    some (.ok (.truth false, shows 8)) := rfl
  obtain ⟨_, course, -, hosted5⟩ :=
    Course.nothing.done reached near (fun _ _ _ => trivial) hosted raises
  obtain ⟨fleet, course, -, hosted7⟩ :=
    course.done reached (course.uses reached near) (fun _ _ _ => trivial) hosted5 adds
  have carried : Operation.CarriedBy (.incrementAndRead ⟨0⟩) handle route fleet :=
    Operation.carriedBy_answered hosted7
      (fun _ hosted => ⟨_, Host.perform_answered hosted (Host.comesTo_counterAdd (shows 7) "B" ⟨0⟩ 1)⟩)
      (.invoke ⟨trivial, Json.valid_ofNat (by decide), Host.valid_intJson 1, trivial⟩
        (by decide : 0 + 2 < Message.nestingBudget) (by decide +kernel))
      (.reply (Host.valid_intJson 8) (by decide : 0 + 1 < Message.nestingBudget) (by decide +kernel))
  obtain ⟨_, course, -, hosted8⟩ :=
    course.done reached (course.uses reached far) carried hosted7 counts
  obtain ⟨_, course, -, -⟩ :=
    course.done reached (course.uses reached near) (fun _ _ _ => trivial) hosted8 stays
  have shown : s.fleet.counter? 0 "B" ⟨0⟩ = some 0 := by
    rw [Fleet.counter?, hosted]
    rfl
  obtain ⟨m, comes, risen, -⟩ := counter_ascends reached course (by simp [Incident.Spares]) shown
    (by decide) (by decide)
  have same : m = 8 := Int64.toInt_inj.mp risen.level
  exact ⟨log, s, _, _, reached, course, rfl, shown, same ▸ comes⟩

end Federation

end Coordination
