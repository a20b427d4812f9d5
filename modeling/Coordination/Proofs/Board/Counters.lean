import Coordination.Proofs.Board.Transcript
import Mathlib

/-!
Counters lose nothing. A counter that is only added to shows the sum of everything that has been added
to it, modulo 2^64, whoever added it and in whatever order; and the numbers that come from counting up
by one are all different.
-/

namespace Coordination

theorem Counters.read?_change?_self {count : Nat} {counters after : Counters count} {id : CounterId}
    {operation : Counter → Int64 × Counter} {answer : Int64}
    (changed : counters.change? operation id = some (answer, after)) :
    ∃ counter : Counter, counters.read? id = some counter.value ∧ answer = (operation counter).1 ∧
      after.read? id = some (operation counter).2.value := by
  by_cases bound : id.number.toNat < count
  · rw [change?_of_lt bound] at changed
    cases changed
    exact ⟨counters[id.number.toNat], by simp [read?, bound], rfl, by simp [read?, bound]⟩
  · rw [change?_of_le (Nat.not_lt.mp bound)] at changed
    cases changed

namespace Board

variable {b after : Board} {id : CounterId}

theorem read?_applyCounter_self {operation : Counter → Int64 × Counter} {answer : Int64}
    (applied : b.applyCounter operation id = .ok (answer, after)) :
    ∃ counter : Counter, b.counters.read? id = some counter.value ∧
      answer = (operation counter).1 ∧
      after.counters.read? id = some (operation counter).2.value := by
  rw [applyCounter_eq] at applied
  cases changed : b.counters.change? operation id with
  | none => simp [changed] at applied
  | some result =>
      simp only [changed, Except.ok.injEq, Prod.mk.injEq] at applied
      obtain ⟨rfl, rfl⟩ := applied
      exact Counters.read?_change?_self changed

theorem read?_applyCounter_of_ne {operation : Counter → Int64 × Counter} {other : CounterId}
    {answer : Int64} (applied : b.applyCounter operation id = .ok (answer, after))
    (apart : other ≠ id) : after.counters.read? other = b.counters.read? other := by
  obtain ⟨counters, rfl, others⟩ := Host.applyCounter_confined applied
  exact others other apart

/-- What adding to one counter does to any of them. -/
theorem read?_addCounter {delta sum : Int64} (added : b.addCounter id delta = .ok (sum, after))
    (other : CounterId) :
    after.counters.read? other =
        (b.counters.read? other).map (· + if id = other then delta else 0) ∧
      (id = other → after.counters.read? other = some sum) := by
  by_cases same : id = other
  · subst same
    obtain ⟨counter, before, rfl, later⟩ := read?_applyCounter_self added
    simp [before, later]
  · simp [read?_applyCounter_of_ne added (Ne.symm same), same]

end Board

/-! One operation. -/

namespace Operation

variable {b after : Board} {owner : String} {lockTimeout : Option UInt64} {operation : Operation}
  {answer : Answer} {id : CounterId}

/-- What an operation does to a counter, and what it tells about it. -/
structure Adds (id : CounterId) (b : Board) (operation : Operation) (answer : Answer)
    (after : Board) : Prop where
  value : after.counters.read? id =
    (b.counters.read? id).map (· + (operation.delta? id).getD 0)
  told : operation.Tells id → ∃ n, answer = .number n ∧ after.counters.read? id = some n

theorem adds_nothing (silent : operation.delta? id = none) (untold : ¬ operation.Tells id)
    (same : after.counters.read? id = b.counters.read? id) : Adds id b operation answer after where
  value := by simp [same, silent]
  told := fun tells => absurd tells untold

theorem adds_addCounter {shown : Int64 → Answer} {other : CounterId} {delta : Int64}
    (added : some (answered shown (b.addCounter other delta)) = some (.ok (answer, after)))
    (adds : operation.delta? id = if other = id then some delta else none)
    (tells : operation.Tells id → other = id ∧ ∀ n, shown n = .number n) :
    Adds id b operation answer after := by
  simp only [Option.some.injEq, answered, map_eq_ok_iff] at added
  obtain ⟨⟨sum, _⟩, added, same⟩ := added
  cases same
  obtain ⟨value, told⟩ := Board.read?_addCounter added id
  constructor
  · rw [value, adds]
    split <;> rfl
  · intro telling
    obtain ⟨same, number⟩ := tells telling
    exact ⟨sum, number sum, told same⟩

theorem adds_acquire {name : String} {timeout : Option UInt64} (silent : operation.delta? id = none)
    (untold : ¬ operation.Tells id)
    (acquired : (b.acquire name owner timeout).map (Operation.done <$> ·) =
      some (.ok (answer, after))) : Adds id b operation answer after := by
  simp only [Option.map_eq_some_iff, map_eq_ok_iff] at acquired
  obtain ⟨_, acquired, changed, rfl, same⟩ := acquired
  cases same
  obtain ⟨locks, rfl, -⟩ := Host.acquire_confined acquired
  exact adds_nothing silent untold rfl

theorem adds_onBoard
    (done : operation.onBoard owner lockTimeout b = some (.ok (answer, after)))
    (additive : ¬ operation.Overwrites id) : Adds id b operation answer after := by
  cases operation with
  | increment other | incrementBy other delta | decrement other =>
      exact adds_addCounter done rfl False.elim
  | incrementAndRead other | addAndRead other delta =>
      exact adds_addCounter done rfl fun same => ⟨same, fun _ => rfl⟩
  | read other =>
      simp only [onBoard, Option.some.injEq, map_eq_ok_iff] at done
      obtain ⟨n, found, same⟩ := done
      cases same
      refine ⟨by simp [delta?], ?_⟩
      rintro rfl
      refine ⟨n, rfl, ?_⟩
      unfold Board.readCounter at found
      split at found
      · rename_i value read
        cases found
        exact read
      · cases found
  | setIfLarger other candidate =>
      simp only [onBoard, Option.some.injEq, answered, Board.raiseCounter_eq, map_eq_ok_iff] at done
      obtain ⟨_, ⟨_, raised, rfl⟩, same⟩ := done
      cases same
      exact adds_nothing rfl not_false (Board.read?_applyCounter_of_ne raised (Ne.symm additive))
  | zero other =>
      simp only [onBoard, Option.some.injEq, answered, map_eq_ok_iff] at done
      obtain ⟨_, zeroed, same⟩ := done
      cases same
      exact adds_nothing rfl not_false (Board.read?_applyCounter_of_ne zeroed (Ne.symm additive))
  | lock name | lockWithin name timeoutMs => exact adds_acquire rfl not_false done
  | unlock name =>
      simp only [onBoard, Option.some.injEq, map_eq_ok_iff] at done
      obtain ⟨changed, released, same⟩ := done
      cases same
      obtain ⟨locks, rfl, -⟩ := Host.release_confined released
      exact adds_nothing rfl not_false rfl
  | readAll | put | get | containsKey | clear | size | snapshot =>
      cases done
      exact adds_nothing rfl not_false rfl

end Operation

/-! Sums. -/

namespace Transcript

variable {id : CounterId}

theorem sum_concat (operations : List Operation) (operation : Operation) :
    sum id (operations ++ [operation]) =
      sum id operations + (operation.delta? id).getD 0 := by
  cases adds : operation.delta? id <;> simp [sum, deltas, adds, Int64.ofInt_add]

end Transcript

namespace Board

open Transcript

variable {schema : Schema} {name : String} {t : Transcript} {after : Board} {id : CounterId}

theorem Undergoes.schema_eq {before : Board} (undergone : before.Undergoes t after) :
    after.schema = before.schema := by
  induction undergone with
  | nothing => rfl
  | operation _ done same => exact (Operation.continues_onBoard done).2.trans same

theorem Undergoes.counter (undergone : (fresh name schema).Undergoes t after)
    (additive : ∀ operation ∈ t.operations, ¬ operation.Overwrites id) :
    after.counters.read? id = if schema.hasCounter id then some (sum id t.operations) else none := by
  induction undergone with
  | nothing =>
      have untouched := (Host.untouched_fresh name schema).2.1 id
      rw [untouched]
      rfl
  | @operation earlier b next owner lockTimeout operation answer undergone done induction =>
      rw [operations_concat] at additive ⊢
      have before := induction fun other member => additive other (List.mem_append_left _ member)
      have last := additive operation (List.mem_append_right _ List.mem_cons_self)
      rw [(Operation.adds_onBoard done last).value, before, sum_concat]
      split <;> rfl

/-- Every number that was told is the sum of what had been added by then. -/
theorem Undergoes.told (undergone : (fresh name schema).Undergoes t after)
    (additive : ∀ operation ∈ t.operations, ¬ operation.Overwrites id) {earlier : Transcript}
    {operation : Operation} {answer : Answer} (here : earlier ++ [(operation, answer)] <+: t)
    (tells : operation.Tells id) :
    answer = .number (sum id (operations (earlier ++ [(operation, answer)]))) := by
  induction undergone with
  | nothing => simp at here
  | @operation before b next owner lockTimeout last lastAnswer undergone done induction =>
      rcases List.prefix_concat_iff.mp here with same | further
      · rw [same]
        have counter := (undergone.operation done).counter additive
        obtain ⟨_, same⟩ := List.append_inj' same rfl
        cases same
        have lastAdds := additive operation (by simp)
        obtain ⟨n, rfl, shown⟩ := (Operation.adds_onBoard done lastAdds).told tells
        rw [shown] at counter
        split at counter
        · exact congrArg Answer.number (Option.some.inj counter)
        · cases counter
      · refine induction (fun other member => additive other ?_) further
        simp [member]

end Board

/-! Counting up by one. -/

namespace Transcript

variable {id : CounterId}

/-- All that is added to the counter is added by handing out the next number. -/
def CountsUp (id : CounterId) (operations : List Operation) : Prop :=
  ∀ operation ∈ operations, (operation.delta? id).isSome → operation = .incrementAndRead id

instance (id : CounterId) (operations : List Operation) : Decidable (CountsUp id operations) :=
  inferInstanceAs (Decidable (∀ operation ∈ operations, _ → _))

theorem sum_of_countsUp {operations : List Operation} (countsUp : CountsUp id operations) :
    sum id operations = .ofNat (deltas id operations).length := by
  have ones : deltas id operations = List.replicate (deltas id operations).length 1 := by
    apply List.eq_replicate_of_mem
    intro delta member
    obtain ⟨operation, performed, adds⟩ := List.mem_filterMap.mp member
    rw [countsUp operation performed (by simp [adds])] at adds
    simpa [Operation.delta?] using adds.symm
  rw [sum, ones]
  simp [Int64.ofInt_eq_ofNat]

/-- Numbers from 1 on are different in 64 bits as long as they are positive. -/
theorem distinct_of_eq_range' {numbers : List Int64} {count : Nat} (small : count < 2 ^ 63)
    (inOrder : numbers = (List.range' 1 count).map Int64.ofNat) :
    numbers.map Int64.toInt = (List.range' 1 count).map Nat.cast ∧ numbers.Nodup := by
  have shown : numbers.map Int64.toInt = (List.range' 1 count).map Nat.cast := by
    rw [inOrder, List.map_map]
    apply List.map_congr_left
    intro n member
    have bounds := List.mem_range'_1.mp member
    exact Int64.toInt_ofNat_of_lt (by omega)
  refine ⟨shown, .of_map Int64.toInt ?_⟩
  rw [shown]
  exact (List.nodup_range' 1).map fun _ _ => Int.ofNat_inj.mp

theorem sequenceNumbers_append (first second : Transcript) :
    sequenceNumbers id (first ++ second) = sequenceNumbers id first ++ sequenceNumbers id second :=
  List.filterMap_append

end Transcript

theorem Board.Undergoes.sequenceNumbers {schema : Schema} {name : String} {t : Transcript}
    {after : Board} {id : CounterId} (undergone : (fresh name schema).Undergoes t after)
    (additive : ∀ operation ∈ t.operations, ¬ operation.Overwrites id)
    (countsUp : Transcript.CountsUp id t.operations) :
    t.sequenceNumbers id =
      (List.range' 1 (Transcript.deltas id t.operations).length).map Int64.ofNat := by
  induction undergone with
  | nothing => rfl
  | @operation earlier b next owner lockTimeout operation answer undergone done induction =>
      rw [Transcript.operations_concat] at additive countsUp ⊢
      have before := induction
        (fun other member => additive other (List.mem_append_left _ member))
        (fun other member => countsUp other (List.mem_append_left _ member))
      have performed : operation ∈ earlier.operations ++ [operation] := by simp
      rw [Transcript.sequenceNumbers_append, before]
      by_cases adds : (operation.delta? id).isSome
      · obtain rfl := countsUp operation performed adds
        have longer : Transcript.deltas id (earlier.operations ++ [.incrementAndRead id]) =
            Transcript.deltas id earlier.operations ++ [1] := by
          simp [Transcript.deltas, Operation.delta?]
        have told := (undergone.operation done).told (by simpa using additive) List.prefix_rfl rfl
        rw [Transcript.operations_concat, Transcript.sum_of_countsUp countsUp, longer,
          List.length_append, List.length_singleton, Nat.add_comm] at told
        subst told
        rw [longer, List.length_append, List.length_singleton, List.range'_1_concat,
          List.map_append]
        simp [Transcript.sequenceNumbers]
      · have silent : operation.delta? id = none := by simpa using adds
        have untold : Transcript.sequenceNumbers id [(operation, answer)] = [] := by
          cases operation with
          | incrementAndRead other =>
              have apart : other ≠ id := by simpa [Operation.delta?] using silent
              cases answer <;> simp [Transcript.sequenceNumbers, apart]
          | _ => rfl
        simp [untold, Transcript.deltas, silent]

/-! The same operations in another order. -/

theorem Operation.answered_of_delta? {b : Board} {operation : Operation} {id : CounterId}
    {delta n : Int64} (adds : operation.delta? id = some delta)
    (there : b.counters.read? id = some n) (owner : String) (lockTimeout : Option UInt64) :
    ∃ direct, operation.onBoard owner lockTimeout b = some (.ok direct) := by
  have declared : b.schema.hasCounter id = true := by
    by_contra outside
    simp [Schema.hasCounter] at outside
    simp [Counters.read?, outside] at there
  have added (delta : Int64) : ∃ direct, b.addCounter id delta = .ok direct := by
    obtain ⟨sum, after, applied⟩ := Board.applyCounter_of_declared declared (·.add delta)
    exact ⟨(sum, after), applied⟩
  cases operation with
  | increment other | incrementAndRead other | decrement other | incrementBy other _
  | addAndRead other _ =>
      obtain ⟨rfl, -⟩ := Option.ite_none_right_eq_some.mp adds
      obtain ⟨direct, added⟩ := added _
      rw [onBoard, added]
      exact ⟨_, rfl⟩
  | _ => cases adds

namespace Host

variable {h : Host} {name : String} {id : CounterId}

theorem counter?_of_hosted {b : Board} (hosted : h.boards.get? name = some b) :
    h.counter? name id = b.counters.read? id := by
  rw [counter?, hosted, Option.bind_some]

/-- An operation leaves a counter of its board with what it adds to it. It cannot fail to add. -/
theorem counter?_operate_self {owner : String} {lockTimeout : Option UInt64}
    {operation : Operation} (additive : ¬ operation.Overwrites id) :
    ((h.operate name owner lockTimeout operation).elim h Prod.snd).counter? name id =
      (h.counter? name id).map (· + (operation.delta? id).getD 0) := by
  cases hosted : h.boards.get? name with
  | none =>
      have unknown : h.board name = .error (.unknownBoard name) := by rw [board, hosted]
      simp [operate, unknown, counter?, hosted]
  | some b =>
      have found := board_eq_ok_iff.mpr hosted
      have unchanged (undone : ∀ direct, operation.onBoard owner lockTimeout b ≠ some (.ok direct)) :
          h.counter? name id = (h.counter? name id).map (· + (operation.delta? id).getD 0) := by
        rw [counter?_of_hosted hosted]
        cases there : b.counters.read? id with
        | none => rfl
        | some n =>
            cases adds : operation.delta? id with
            | none => simp
            | some delta =>
                obtain ⟨direct, done⟩ := operation.answered_of_delta? adds there owner lockTimeout
                exact absurd done (undone direct)
      cases done : operation.onBoard owner lockTimeout b with
      | none =>
          simp only [operate, found, done, Option.map_none, Option.elim_none]
          exact unchanged (by simp [done])
      | some result =>
          cases result with
          | error fault =>
              simp only [operate, found, done, Option.map_some, Option.elim_some, commit]
              exact unchanged (by simp [done])
          | ok direct =>
              obtain ⟨answer, after⟩ := direct
              obtain rfl := h.named name b hosted
              have same := (Operation.continues_onBoard done).1
              have later : (h.replaceBoard after).boards.get? b.name = some after := by
                rw [get?_replaceBoard, if_pos same.symm]
              simp only [operate, found, done, Option.map_some, Option.elim_some, commit]
              rw [counter?_of_hosted hosted, counter?_of_hosted later]
              exact (Operation.adds_onBoard done additive).value

theorem counter?_operate_of_ne {board owner : String} {lockTimeout : Option UInt64}
    {operation : Operation} (apart : board ≠ name) :
    ((h.operate board owner lockTimeout operation).elim h Prod.snd).counter? name id =
      h.counter? name id := by
  cases operated : h.operate board owner lockTimeout operation with
  | none => rfl
  | some result =>
      obtain ⟨outcome, after⟩ := result
      rcases operate_cases operated with
        ⟨fault, -, rfl⟩ | ⟨b, answer, next, hosted, rfl, done, -, rfl⟩
      · rfl
      · rw [Option.elim_some, counter?, get?_replaceBoard_of_ne h (Ne.symm apart), counter?]

end Host

namespace Gathering

variable {g : Gathering} {name : String} {id : CounterId}

-- `credit` decides who is attached, and what it decides by has one name wherever it is used.
instance lawfulBEq_attachment : LawfulBEq (Nat × String) := inferInstance

/-- What a request adds to a counter of the board of this name. -/
def credit (g : Gathering) (name : String) (id : CounterId) : Request → Int
  | .operate party board operation =>
      if board = name ∧ (party, name) ∈ g.attached ∧ party < g.parties.length then
        ((operation.delta? id).getD 0).toInt
      else 0
  | .attach .. | .call .. => 0

theorem counter?_operate (g : Gathering) (party : Nat) {board : String} {operation : Operation}
    (additive : board = name → ¬ operation.Overwrites id) :
    (g.step (.operate party board operation)).2.host.counter? name id =
      (g.host.counter? name id).map
        (· + .ofInt (g.credit name id (.operate party board operation))) := by
  unfold credit
  cases isParty : g.parties[party]? with
  | none =>
      have outside := Nat.not_lt.mpr (List.getElem?_eq_none_iff.mp isParty)
      simp [step, outside]
  | some p =>
      have inside := (List.getElem?_eq_some_iff.mp isParty).1
      by_cases attached : (party, board) ∈ g.attached
      · have operated : (g.operate p board operation).2.host =
            (g.host.operate board p.clientId p.lockTimeout operation).elim g.host Prod.snd := by
          unfold operate
          cases g.host.operate board p.clientId p.lockTimeout operation <;> rfl
        simp only [step, isParty, if_pos attached, operated]
        by_cases same : board = name
        · subst same
          rw [if_pos ⟨rfl, attached, inside⟩, Int64.ofInt_toInt]
          exact Host.counter?_operate_self (additive rfl)
        · rw [if_neg (fun here => same here.1)]
          simp [Host.counter?_operate_of_ne same]
      · have nothing : ¬ (board = name ∧ (party, name) ∈ g.attached ∧ party < g.parties.length) := by
          rintro ⟨rfl, present, -⟩
          exact attached present
        simp [step, isParty, if_neg attached, if_neg nothing]

theorem run_append (g : Gathering) (first second : List Request) :
    (g.run (first ++ second)).2 = ((g.run first).2.run second).2 := by
  induction first generalizing g with
  | nil => rfl
  | cons request rest induction => exact induction (g.step request).2

theorem credit_step (g : Gathering) {request : Request} (isOperation : request.IsOperation) :
    (g.step request).2.credit name id = g.credit name id := by
  cases request with
  | attach | call => cases isOperation
  | operate party board operation =>
      rw [step]
      split
      · split
        · rename_i p _ _
          rw [operate]
          split <;> rfl
        · rfl
      · rfl

theorem counter?_run {work : List Request} (operations : ∀ request ∈ work, request.IsOperation)
    (additive : ∀ request ∈ work, request.AddsOnly name id) :
    (g.run work).2.host.counter? name id =
      (g.host.counter? name id).map (· + .ofInt (work.map (g.credit name id)).sum) := by
  induction work generalizing g with
  | nil => cases shown : g.host.counter? name id <;> simp [run, shown]
  | cons request rest induction =>
      have isOperation := operations request List.mem_cons_self
      have later := induction (g := (g.step request).2)
        (fun other member => operations other (List.mem_cons_of_mem _ member))
        (fun other member => additive other (List.mem_cons_of_mem _ member))
      rw [run_cons, later, credit_step g isOperation]
      cases request with
      | attach | call => cases isOperation
      | operate party board operation =>
          rw [g.counter?_operate party (additive _ List.mem_cons_self), Option.map_map,
            List.map_cons, List.sum_cons]
          refine congrArg (Option.map · _) (funext fun n => ?_)
          simp only [Function.comp_apply, Int64.ofInt_add, Int64.add_assoc]

theorem counter?_reordered {work reordered : List Request} (perm : work.Perm reordered)
    (operations : ∀ request ∈ work, request.IsOperation)
    (additive : ∀ request ∈ work, request.AddsOnly name id) :
    (g.run reordered).2.host.counter? name id = (g.run work).2.host.counter? name id := by
  rw [counter?_run operations additive, counter?_run
    (fun request member => operations request (perm.mem_iff.mpr member))
    (fun request member => additive request (perm.mem_iff.mpr member)),
    (perm.map _).sum_eq]

end Gathering

/-! Through handles. -/

theorem Transcript.mem_operations {name : String} {requests : List Request} {replies : List Reply}
    {operation : Operation} (member : operation ∈ (ofRun name requests replies).operations) :
    ∃ party, .operate party name operation ∈ requests := by
  simp only [operations, ofRun, List.mem_map, List.mem_filterMap] at member
  obtain ⟨entry, ⟨⟨request, reply⟩, both, noted⟩, rfl⟩ := member
  have asked := (List.of_mem_zip both).1
  unfold noted? at noted
  split at noted
  · rename_i party board operation answer same
    cases same
    obtain ⟨rfl, entered⟩ := Option.ite_none_right_eq_some.mp noted
    cases entered
    exact ⟨party, asked⟩
  · cases noted

theorem Handle.run_read {c : Cluster} {host : Host} {h : Handle Cluster} {b : Board}
    {id : CounterId} {n : Int64} (attached : h.Attached host b)
    (shown : b.counters.read? id = some n) :
    (h.read id).run.run (c.withHost host) = some (.ok n, c.withHost host) := by
  have commits := commits_read (c := c) attached id
  rw [Board.readCounter, shown] at commits
  exact attached.run_unchanged commits

namespace RemoteGathering

open Transcript

/-- A counter that is only added to, from the time on at which its board is made, tells everybody the
sum of what has been added so far, in two's complement. Any order of the same operations leads to the
same value, and counting up by one hands out the numbers from 1 on, each of them once. -/
theorem counters_add_up (c : Cluster) (host : Host) (parties : List Party)
    (requests : List Request) (name : String) (id : CounterId)
    (absent : host.boards.get? name = none)
    (spare : ∀ request ∈ requests, request.Spares name)
    (additive : ∀ request ∈ requests, request.AddsOnly name id) :
    let ran := (start c host parties).run requests
    let transcript := Transcript.ofRun name requests ran.1
    (∀ earlier operation answer, earlier ++ [(operation, answer)] <+: transcript →
      operation.Tells id →
        answer = .number (sum id (operations (earlier ++ [(operation, answer)])))) ∧
    (∀ d ∈ ran.2.directories, ∀ handle, d.instance? name .inProcess = some handle →
      handle.schema.hasCounter id →
        (handle.read id).run.run ran.2.cluster =
          some (.ok (sum id transcript.operations), ran.2.cluster)) ∧
    (∀ opening work reordered, requests = opening ++ work →
      (∀ request ∈ work, request.IsOperation) → work.Perm reordered →
        ((start c host parties).run (opening ++ reordered)).2.cluster.host.counter? name id =
          ran.2.cluster.host.counter? name id) ∧
    (CountsUp id transcript.operations →
      let count := (deltas id transcript.operations).length
      count < 2 ^ 63 →
        (transcript.sequenceNumbers id).map Int64.toInt = (List.range' 1 count).map Nat.cast ∧
          (transcript.sequenceNumbers id).Nodup) := by
  intro ran transcript
  have cluster : ran.2.cluster = _ := (attached_run c host parties requests).2.1
  have performed : ∀ operation ∈ transcript.operations, ¬ operation.Overwrites id := by
    intro operation member
    obtain ⟨party, asked⟩ := mem_operations member
    exact additive _ asked rfl
  have history : transcript = [] ∨ _ := undergoes_run absent spare
  refine ⟨?_, ?_, ?_, ?_⟩
  · intro earlier operation answer here tells
    rcases history with nothing | ⟨schema, b, undergone⟩
    · simp [nothing] at here
    · exact undergone.told performed here tells
  · intro d member handle known declared
    obtain ⟨named, schema, b, isAttached, undergone⟩ :=
      undergoes_of_instance? absent spare member known
    rw [cluster]
    apply Handle.run_read isAttached
    have sameSchema : handle.schema = schema := isAttached.schema.symm.trans undergone.schema_eq
    rw [undergone.counter performed, if_pos (sameSchema ▸ declared)]
  · rintro opening work reordered rfl isOperation perm
    have again := (attached_run c host parties (opening ++ reordered)).2.1
    rw [again, cluster]
    simp only [Cluster.host_withHost, Gathering.run_append]
    apply Gathering.counter?_reordered perm isOperation
    intro request member
    exact additive request (List.mem_append_right _ member)
  · intro countsUp count small
    apply distinct_of_eq_range' small
    rcases history with nothing | ⟨schema, b, undergone⟩
    · rw [show count = 0 from congrArg (fun t => (deltas id (operations t)).length) nothing, nothing]
      rfl
    · exact undergone.sequenceNumbers performed countsUp

/-- Two parties of one name count up, and a third adds to another counter. -/
theorem counters_add_up_to_three :
    let schema : Schema := ⟨["SEQ", "OTHER"], []⟩
    let c := Cluster.start ⟨"node", "task"⟩ true
    let parties : List Party := [⟨"me", none⟩, ⟨"me", none⟩, ⟨"you", none⟩]
    let requests : List Request :=
      [.attach 0 "B" schema, .operate 1 "B" (.increment ⟨0⟩), .attach 1 "B" schema,
        .attach 2 "B" schema, .operate 0 "B" (.incrementAndRead ⟨0⟩),
        .operate 1 "B" (.incrementAndRead ⟨0⟩), .operate 2 "B" (.zero ⟨1⟩),
        .operate 2 "B" (.addAndRead ⟨1⟩ (-7)), .operate 0 "B" (.incrementAndRead ⟨0⟩)]
    let ran := (start c .empty parties).run requests
    let transcript := Transcript.ofRun "B" requests ran.1
    Host.empty.boards.get? "B" = none ∧ (∀ request ∈ requests, request.Spares "B") ∧
      (∀ request ∈ requests, request.AddsOnly "B" ⟨0⟩) ∧
      (transcript.sequenceNumbers ⟨0⟩).map Int64.toInt = [1, 2, 3] := by
  intro schema c parties requests ran transcript
  have absent : Host.empty.boards.get? "B" = none := rfl
  have spare : ∀ request ∈ requests, request.Spares "B" := by decide
  have additive : ∀ request ∈ requests, request.AddsOnly "B" ⟨0⟩ := by decide
  have operations : transcript.operations = [.incrementAndRead ⟨0⟩, .incrementAndRead ⟨0⟩,
      .zero ⟨1⟩, .addAndRead ⟨1⟩ (-7), .incrementAndRead ⟨0⟩] := by decide +kernel
  have countsUp : CountsUp ⟨0⟩ transcript.operations := by
    rw [operations]
    decide
  have count : (deltas ⟨0⟩ transcript.operations).length = 3 := by
    rw [operations]
    decide
  have numbers := (counters_add_up c .empty parties requests "B" ⟨0⟩ absent spare additive).2.2.2
    countsUp (count.trans_lt (by decide))
  rw [count] at numbers
  exact ⟨absent, spare, additive, numbers.1⟩

end RemoteGathering

end Coordination
