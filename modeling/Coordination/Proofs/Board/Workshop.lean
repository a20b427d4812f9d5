import Coordination.Proofs.Board.Handle
import Coordination.Proofs.Board.Operation
import Coordination.Proofs.Board.Tally
import Coordination.Proofs.Board.Work

/-!
Counting under a lock counts right. At any moment at most one worker is between taking the lock and
giving it back, also if others go by the same name. The entry shows how many calls have succeeded, or
one more while the lock is still to be given back.
-/

namespace Coordination.Workshop

open Tally

variable {t : Tally} {c : Cluster} {w : Workshop} {host : Host} {b : Board} {index : Nat}
  {worker : Worker}

/-! The board and the handles. -/

structure Equipped (t : Tally) (c : Cluster) (w : Workshop) (host : Host) (b : Board) : Prop where
  cluster : w.cluster = c.withHost host
  hosted : host.boards.get? t.board = some b
  attached : ∀ worker ∈ w.workers, worker.handle.Attached host b

theorem attached_replaceBoard {h : Handle Cluster} {next : Board} (attached : h.Attached host b)
    (continues : Host.Continues b next) : h.Attached (host.replaceBoard next) next where
  inProcess := attached.inProcess
  hosted := by
    rw [Host.get?_replaceBoard, if_pos (continues.1.trans attached.name).symm]
  schema := continues.2.trans attached.schema

/-! Who has the lock. -/

/-- The worker is about to begin a call. -/
structure Idle (t : Tally) (worker : Worker) : Prop where
  rest : worker.rest = t.work
  unchanged : worker.changed = false

/-- The worker is between taking the lock and giving it back, and all others are idle. -/
structure Holding (t : Tally) (b : Board) (w : Workshop) (index : Nat) (worker : Worker)
    (phase : Phase) : Prop where
  found : w.workers[index]? = some worker
  busy : worker.calls ≠ 0
  holds : b.locks.holder? t.lock = some (some worker.handle.clientId)
  rest : worker.rest = phase.rest t w.successes
  unchanged : phase ≠ .leaving → worker.changed = false
  others : ∀ other idle, other ≠ index → w.workers[other]? = some idle → Idle t idle
  entry : b.entries.get? (keyText t.key) =
    numeral (if phase = .leaving then w.successes + 1 else w.successes)

inductive Order (t : Tally) (b : Board) (w : Workshop) : Prop where
  | vacant (idle : ∀ worker ∈ w.workers, Idle t worker)
      (entry : b.entries.get? (keyText t.key) = numeral w.successes)
  | taken (index : Nat) (worker : Worker) (phase : Phase)
      (holding : Holding t b w index worker phase)

def Honest (w : Workshop) : Prop :=
  ∀ call ∈ w.returned, call.result ≠ .ok () → call.changed = false

structure Sound (t : Tally) (c : Cluster) (w : Workshop) (host : Host) (b : Board) : Prop where
  equipped : Equipped t c w host b
  order : Order t b w
  honest : Honest w

theorem hosted_replaceBoard (equipped : Equipped t c w host b) {next : Board}
    (continues : Host.Continues b next) :
    (host.replaceBoard next).boards.get? t.board = some next := by
  have named : t.board = next.name := (host.named _ _ equipped.hosted).symm.trans continues.1.symm
  rw [Host.get?_replaceBoard, if_pos named]

/-! One operation of a worker, by what it comes to on the board. -/

@[simp] theorem marked_false (worker : Worker) : worker.marked false = worker := by
  simp [Worker.marked]

section Advance

variable {operation : Operation} {next : Except Fault Answer → Work Unit}

theorem advance_of_waiting (equipped : Equipped t c w host b)
    (attached : worker.handle.Attached host b) (rest : worker.rest = .operate operation next)
    (waits : operation.onBoard worker.handle.clientId worker.handle.lockTimeout b = none) :
    w.advance t index worker = w := by
  have commits := Handle.commits_perform (c := c) attached operation
  rw [Commits, waits] at commits
  simp only [advance, rest, equipped.cluster, commits, Option.map_none]

theorem advance_of_failed (equipped : Equipped t c w host b)
    (attached : worker.handle.Attached host b) (rest : worker.rest = .operate operation next)
    {fault : Fault} (failed : operation.onBoard worker.handle.clientId worker.handle.lockTimeout b =
      some (.error fault)) :
    w.advance t index worker =
      { w with cluster := c.withHost host }.resume t index worker (next (.error fault)) := by
  have commits := Handle.commits_perform (c := c) attached operation
  rw [Commits, failed] at commits
  simp [advance, rest, equipped.cluster, commits, Host.commit]

theorem advance_of_done (equipped : Equipped t c w host b)
    (attached : worker.handle.Attached host b) (rest : worker.rest = .operate operation next)
    {answer : Answer} {after : Board}
    (done : operation.onBoard worker.handle.clientId worker.handle.lockTimeout b =
      some (.ok (answer, after))) :
    w.advance t index worker =
      { w with cluster := c.withHost (host.replaceBoard after) }.resume t index
        (worker.marked
          (decide (after.entries.get? (keyText t.key) ≠ b.entries.get? (keyText t.key))))
        (next (.ok answer)) := by
  have commits := Handle.commits_perform (c := c) attached operation
  rw [Commits, done] at commits
  have before := shown_of_hosted equipped.hosted
  have later := shown_of_hosted (hosted_replaceBoard equipped (Operation.continues_onBoard done))
  simp only [advance, rest, equipped.cluster, commits, Option.map_some, Host.commit,
    Cluster.host_withHost, before, later]

end Advance

theorem successes_ok (w : Workshop) (cluster : Cluster) (workers : List Worker) (changed : Bool) :
    successes ⟨cluster, workers, ⟨.ok (), changed⟩ :: w.returned⟩ = w.successes + 1 := by
  simp [successes]

theorem successes_error (w : Workshop) (cluster : Cluster) (workers : List Worker) (fault : Fault)
    (changed : Bool) :
    successes ⟨cluster, workers, ⟨.error fault, changed⟩ :: w.returned⟩ = w.successes := by
  simp [successes]

theorem equipped_set {after : Host} {next : Board} (equipped : Equipped t c w host b)
    (found : w.workers[index]? = some worker) (changed : Worker)
    (sameHandle : changed.handle = worker.handle)
    (hosted : after.boards.get? t.board = some next)
    (kept : ∀ h : Handle Cluster, h.Attached host b → h.Attached after next)
    (returned : List Returned) :
    Equipped t c ⟨c.withHost after, w.workers.set index changed, returned⟩ after next where
  cluster := rfl
  hosted := hosted
  attached := by
    intro other member
    rcases List.mem_or_eq_of_mem_set member with old | rfl
    · exact kept other.handle (equipped.attached other old)
    · rw [sameHandle]
      exact kept worker.handle (equipped.attached worker (List.mem_of_getElem? found))

theorem idle_rested (t : Tally) (worker : Worker) : Idle t (worker.rested t) := ⟨rfl, rfl⟩

theorem order_set {changed : Worker} {cluster : Cluster} {returned : List Returned}
    (order : Order t b w) (found : w.workers[index]? = some worker) (idle : Idle t worker)
    (stillIdle : Idle t changed)
    (same : successes ⟨cluster, w.workers.set index changed, returned⟩ = w.successes) :
    Order t b ⟨cluster, w.workers.set index changed, returned⟩ := by
  cases order with
  | vacant allIdle entry =>
      refine .vacant ?_ (same ▸ entry)
      intro other member
      rcases List.mem_or_eq_of_mem_set member with old | rfl
      · exact allIdle other old
      · exact stillIdle
  | taken place holder phase holding =>
      have inside := (List.getElem?_eq_some_iff.mp found).1
      have apart : index ≠ place := by
        -- With the lock taken, a worker is past the start of its call.
        rintro rfl
        cases found.symm.trans holding.found
        exact phase.rest_ne_work _ (holding.rest.symm.trans idle.rest)
      refine .taken place holder phase ⟨?_, holding.busy, holding.holds, same ▸ holding.rest,
        holding.unchanged, ?_, same ▸ holding.entry⟩
      · exact (List.getElem?_set_ne apart).trans holding.found
      · intro other someone away atOther
        by_cases here : other = index
        · subst here
          cases (List.getElem?_set_self inside).symm.trans atOther
          exact stillIdle
        · rw [List.getElem?_set_ne (Ne.symm here)] at atOther
          exact holding.others other someone away atOther

theorem equipped_replaceBoard {next : Board} (equipped : Equipped t c w host b)
    (found : w.workers[index]? = some worker) (continues : Host.Continues b next)
    (changed : Worker) (sameHandle : changed.handle = worker.handle) (returned : List Returned) :
    Equipped t c ⟨c.withHost (host.replaceBoard next), w.workers.set index changed, returned⟩
      (host.replaceBoard next) next := by
  apply equipped_set equipped found changed sameHandle (hosted_replaceBoard equipped continues)
  intro h attached
  exact attached_replaceBoard attached continues

/-- A worker that is refused the lock is done with its call and has changed nothing. -/
theorem sound_refused (sound : Sound t c w host b) (found : w.workers[index]? = some worker)
    (idle : Idle t worker) (fault : Fault) :
    Sound t c ({ w with cluster := c.withHost host }.resume t index worker (.ended (.error fault)))
      host b where
  equipped := by
    refine equipped_set sound.equipped found _ ?_ sound.equipped.hosted (fun _ => id) _
    rfl
  order := by
    apply order_set sound.order found idle (idle_rested t worker)
    exact successes_error ..
  honest := by
    intro call member failed
    rcases List.mem_cons.mp member with rfl | earlier
    · exact idle.unchanged
    · exact sound.honest call earlier failed

theorem resume_phase (w : Workshop) (index : Nat) (worker : Worker) (phase : Phase) (n : Nat) :
    w.resume t index worker (phase.rest t n) =
      { w with workers := w.workers.set index { worker with rest := phase.rest t n } } := by
  cases phase <;> rfl

/-- A worker that has the lock after an operation is in the next phase of its call. -/
theorem sound_phase (sound : Sound t c w host b) (found : w.workers[index]? = some worker)
    (busy : worker.calls ≠ 0) {operation : Operation} {go : Except Fault Answer → Work Unit}
    (rest : worker.rest = .operate operation go) {answer : Answer} {next : Board}
    (done : operation.onBoard worker.handle.clientId worker.handle.lockTimeout b =
      some (.ok (answer, next)))
    (phase : Phase) (goes : go (.ok answer) = phase.rest t w.successes)
    (unchanged : phase ≠ .leaving →
      worker.changed = false ∧ next.entries.get? (keyText t.key) = b.entries.get? (keyText t.key))
    (holds : next.locks.holder? t.lock = some (some worker.handle.clientId))
    (others : ∀ other idle, other ≠ index → w.workers[other]? = some idle → Idle t idle)
    (entry : next.entries.get? (keyText t.key) =
      numeral (if phase = .leaving then w.successes + 1 else w.successes)) :
    Sound t c (w.advance t index worker) (host.replaceBoard next) next := by
  have attached := sound.equipped.attached worker (List.mem_of_getElem? found)
  have inside := (List.getElem?_eq_some_iff.mp found).1
  rw [advance_of_done sound.equipped attached rest done, goes, resume_phase]
  constructor
  · refine equipped_replaceBoard sound.equipped found (Operation.continues_onBoard done) _ ?_ _
    rfl
  · refine .taken index _ phase ⟨List.getElem?_set_self inside, busy, holds, rfl, ?_, ?_, entry⟩
    · intro early
      obtain ⟨wasUnchanged, same⟩ := unchanged early
      simp [Worker.marked, wasUnchanged, same]
    · intro other someone away atOther
      rw [List.getElem?_set_ne (Ne.symm away)] at atOther
      exact others other someone away atOther
  · exact sound.honest

/-- A worker at the start of a call takes the lock if it is free, and is refused or waits if not. -/
theorem sound_idle (sound : Sound t c w host b) (found : w.workers[index]? = some worker)
    (busy : worker.calls ≠ 0) (idle : Idle t worker) :
    ∃ after next, Sound t c (w.advance t index worker) after next := by
  have attached := sound.equipped.attached worker (List.mem_of_getElem? found)
  have rest := idle.rest.trans (work_eq t)
  cases state : b.locks.holder? t.lock with
  | none =>
      have failed := Operation.onBoard_lock_of_undeclared state worker.handle.clientId
        worker.handle.lockTimeout
      rw [advance_of_failed sound.equipped attached rest failed]
      exact ⟨host, b, sound_refused sound found idle _⟩
  | some holder =>
      cases holder with
      | some holder =>
          have held := Operation.onBoard_lock_of_held state worker.handle.clientId
            worker.handle.lockTimeout
          cases timeout : worker.handle.lockTimeout with
          | none =>
              have waits := held.trans (congrArg (Option.map _) timeout)
              rw [advance_of_waiting sound.equipped attached rest waits]
              exact ⟨host, b, sound⟩
          | some timeoutMs =>
              have failed := held.trans (congrArg (Option.map _) timeout)
              rw [advance_of_failed sound.equipped attached rest failed]
              exact ⟨host, b, sound_refused sound found idle _⟩
      | none =>
          cases sound.order with
          | taken place holder phase holding =>
              -- Whoever is between taking the lock and giving it back is its holder.
              cases state.symm.trans holding.holds
          | vacant allIdle entry =>
              have taken := Operation.onBoard_lock_of_free state worker.handle.clientId
                worker.handle.lockTimeout
              refine ⟨_, _, sound_phase sound found busy rest taken .reading rfl ?_ ?_ ?_ entry⟩
              · exact fun _ => ⟨idle.unchanged, rfl⟩
              · exact b.holder?_withHolder_self ..
              · intro other someone _ atOther
                exact allIdle someone (List.mem_of_getElem? atOther)

theorem sound_left (sound : Sound t c w host b) (holding : Holding t b w index worker .leaving) :
    let next := b.withHolder t.lock none (by simp [holding.holds])
    Sound t c (w.advance t index worker) (host.replaceBoard next) next := by
  intro next
  have attached := sound.equipped.attached worker (List.mem_of_getElem? holding.found)
  have inside := (List.getElem?_eq_some_iff.mp holding.found).1
  have released := Operation.onBoard_unlock_of_holder holding.holds worker.handle.lockTimeout
  have continues := Operation.continues_onBoard released
  rw [advance_of_done sound.equipped attached holding.rest released]
  refine ⟨?_, .vacant ?_ ?_, ?_⟩
  · refine equipped_replaceBoard sound.equipped holding.found continues _ ?_ _
    rfl
  · intro someone member
    obtain ⟨place, atPlace⟩ := List.getElem?_of_mem member
    by_cases here : place = index
    · subst here
      cases (List.getElem?_set_self inside).symm.trans atPlace
      exact idle_rested t _
    · have before := (List.getElem?_set_ne (Ne.symm here)).symm.trans atPlace
      exact holding.others place someone here before
  · exact holding.entry.trans (congrArg numeral (successes_ok ..).symm)
  · intro call member failed
    rcases List.mem_cons.mp member with rfl | earlier
    · exact absurd rfl failed
    · exact sound.honest call earlier failed

theorem sound_taken (sound : Sound t c w host b) {phase : Phase}
    (holding : Holding t b w index worker phase) :
    ∃ after next, Sound t c (w.advance t index worker) after next := by
  obtain ⟨found, busy, holds, rest, unchanged, others, entry⟩ := id holding
  cases phase with
  | reading =>
      have seen : (Operation.get t.key).onBoard worker.handle.clientId worker.handle.lockTimeout b =
          some (.ok (.found (numeral w.successes), b)) := by
        rw [Operation.onBoard, entry]
        rfl
      refine ⟨_, _, sound_phase sound found busy rest seen .writing ?_ ?_ holds others entry⟩
      · exact putNext_numeral t w.successes
      · exact fun _ => ⟨unchanged Phase.noConfusion, rfl⟩
  | writing =>
      refine ⟨_, _, sound_phase sound found busy rest rfl .leaving rfl ?_ holds others ?_⟩
      · exact fun early => absurd rfl early
      · exact (Entries.get?_put_self ..).trans (numeral_succ w.successes).symm
  | leaving => exact ⟨_, _, sound_left sound holding⟩

theorem sound_work (sound : Sound t c w host b) (found : w.workers[index]? = some worker)
    (busy : worker.calls ≠ 0) : ∃ after next, Sound t c (w.advance t index worker) after next := by
  cases sound.order with
  | vacant allIdle entry =>
      exact sound_idle sound found busy (allIdle worker (List.mem_of_getElem? found))
  | taken place holder phase holding =>
      by_cases same : index = place
      · subst same
        cases found.symm.trans holding.found
        exact sound_taken sound holding
      · exact sound_idle sound found busy (holding.others index worker same found)

theorem order_untouched {next : Board} (order : Order t b w) (untouched : Untouched t b next)
    (cluster : Cluster) : Order t next { w with cluster } := by
  cases order with
  | vacant allIdle entry => exact .vacant allIdle (untouched.entry.trans entry)
  | taken place holder phase holding =>
      have holds := untouched.holder.trans holding.holds
      have entry := untouched.entry.trans holding.entry
      exact .taken place holder phase { holding with holds, entry }

theorem sound_aside (sound : Sound t c w host b) (call : t.Aside) :
    ∃ after next, Sound t c (w.step t (.aside call)) after next := by
  have equipped := sound.equipped
  rw [step, equipped.cluster, Cluster.invoke_inProcess]
  cases performed : host.perform call.method call.args with
  | none => exact ⟨host, b, sound⟩
  | some reaction =>
      obtain ⟨ending, after, millis⟩ := reaction
      cases ending with
      | crashed text => exact ⟨host, b, sound⟩
      | answered outcome =>
          obtain ⟨next, hosted, untouched⟩ :=
            untouched_of_perform equipped.hosted call.spared performed
          have order := order_untouched sound.order untouched (c.withHost after)
          refine ⟨after, next, ⟨rfl, hosted, ?_⟩, order, sound.honest⟩
          intro worker member
          have attached := equipped.attached worker member
          have named : worker.handle.name = t.board :=
            attached.name.symm.trans (host.named t.board b equipped.hosted)
          exact ⟨attached.inProcess, named ▸ hosted, untouched.continues.2.trans attached.schema⟩

theorem sound_step (sound : Sound t c w host b) (event : Event t) :
    ∃ after next, Sound t c (w.step t event) after next := by
  cases event with
  | aside call => exact sound_aside sound call
  | work index =>
      cases found : w.workers[index]? with
      | none =>
          simp only [step, found]
          exact ⟨host, b, sound⟩
      | some worker =>
          by_cases done : worker.calls = 0
          · simp only [step, found, if_pos done]
            exact ⟨host, b, sound⟩
          · simp only [step, found, if_neg done]
            exact sound_work sound found done

theorem sound_run (sound : Sound t c w host b) (events : List (Event t)) :
    ∃ after next, Sound t c (w.run t events) after next := by
  induction events generalizing w host b with
  | nil => exact ⟨host, b, sound⟩
  | cons event rest induction =>
      obtain ⟨after, next, stepped⟩ := sound_step sound event
      exact induction stepped

theorem sound_start (c : Cluster) (hosted : host.boards.get? t.board = some b)
    (absent : b.entries.get? (keyText t.key) = none) (contracts : List Contract) :
    Sound t c (start t b.schema contracts (c.withHost host)) host b := by
  have newcomer : ∀ someone ∈ (start t b.schema contracts (c.withHost host)).workers,
      ∃ contract, worker t b.schema contract = someone := by
    intro someone member
    obtain ⟨contract, -, same⟩ := List.mem_map.mp member
    exact ⟨contract, same⟩
  refine ⟨⟨rfl, hosted, ?_⟩, .vacant ?_ absent, ?_⟩
  · intro someone member
    obtain ⟨contract, rfl⟩ := newcomer someone member
    exact ⟨rfl, hosted, rfl⟩
  · intro someone member
    obtain ⟨contract, rfl⟩ := newcomer someone member
    exact ⟨rfl, rfl⟩
  · rintro call ⟨⟩

theorem shown_of_allDone (sound : Sound t c w host b) (allDone : w.AllDone) :
    t.shown w.cluster.host = numeral w.successes := by
  rw [sound.equipped.cluster, Cluster.host_withHost, shown_of_hosted sound.equipped.hosted]
  cases sound.order with
  | vacant allIdle entry => exact entry
  | taken place holder phase holding =>
      exact absurd (allDone holder (List.mem_of_getElem? holding.found)) holding.busy

/-- Once all calls have returned, the entry shows how many of them have succeeded. The others have
not changed it. -/
theorem counts_successes (t : Tally) (c : Cluster) (host : Host) (b : Board)
    (hosted : host.boards.get? t.board = some b)
    (absent : b.entries.get? (keyText t.key) = none) (contracts : List Contract)
    (events : List (Event t)) :
    let final := (start t b.schema contracts (c.withHost host)).run t events
    (∀ {ω : Type} (h : Handle ω), t.work.run h = h.withLock t.lock (do
      let n ← h.get Json.Decoder.int64 t.key
      h.put t.key (Host.intJson (n.getD 0 + 1)))) ∧
    (final.AllDone → final.successes < 2 ^ 63 →
      t.shown final.cluster.host =
        if final.successes = 0 then none else some (.integer final.successes)) ∧
    ∀ call ∈ final.returned, call.result ≠ .ok () → call.changed = false := by
  intro final
  obtain ⟨after, next, sound⟩ := sound_run (sound_start c hosted absent contracts) events
  refine ⟨?_, ?_, sound.honest⟩
  · intro ω h
    rw [Tally.work, Work.run_withLock, Work.run_countUp]
  · intro allDone small
    exact (shown_of_allDone sound allDone).trans (numeral_of_lt small)

/-- Two workers of one name and a third one; the second is refused, and the third waits at first. -/
theorem counts_three_of_four :
    let t : Tally := ⟨"B", "L", .string "k"⟩
    let b := Board.fresh "B" ⟨[], ["L"]⟩
    let host := Host.empty.replaceBoard b
    let c := Cluster.start ⟨"node", "task"⟩ true
    let aside : t.Aside := ⟨"map_put", [.string "B", .string "other", .null], by decide +kernel⟩
    let final := (start t b.schema [⟨"me", none, 2⟩, ⟨"me", some 5, 1⟩, ⟨"you", none, 1⟩]
      (c.withHost host)).run t
        ([.work 0, .work 1, .work 2, .work 0, .aside aside, .work 0, .work 2, .work 0] ++
          [.work 2, .work 2, .work 2, .work 2, .work 0, .work 0, .work 0, .work 0])
    host.boards.get? t.board = some b ∧ b.entries.get? (keyText t.key) = none ∧ final.AllDone ∧
      final.successes = 3 ∧ t.shown final.cluster.host = some (.integer 3) := by
  intro t b host c aside final
  have hosted : host.boards.get? t.board = some b := by decide +kernel
  have absent : b.entries.get? (keyText t.key) = none := by decide +kernel
  have allDone : final.AllDone := by decide +kernel
  have three : final.successes = 3 := by decide +kernel
  have counted := (counts_successes t c host b hosted absent _ _).2.1 allDone
    (three.trans_lt (by decide))
  rw [three] at counted
  exact ⟨hosted, absent, allDone, three, counted⟩

end Coordination.Workshop
