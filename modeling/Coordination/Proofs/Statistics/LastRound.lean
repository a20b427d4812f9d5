import Coordination.Proofs.Statistics.Sampling

/-!
Stopping a sampler. The round that is under way comes to its end, the last one takes every live instance, and
the archive is written as it leaves it. Whether there is a file at all never bears on what is in the archive.
-/

namespace Coordination

namespace Sampling

open Threads (Filed)

variable {r : Registry} {s next waiting : Sampling} {event : Event} {moments : List UInt64}
  {timed : List Filed}

/-! Who is in the archive. -/

theorem call?_of_holder (steady : Steady r s) (alone : s.OthersDone) {thread : Nat}
    (holds : s.threads.holder = some thread) : s.stage.call? = some thread := by
  obtain ⟨stage, there, inside⟩ := steady.held thread holds
  obtain ⟨within, here⟩ := List.getElem?_eq_some_iff.mp there
  rcases alone thread within with own | isDone
  · exact own
  · rw [here] at isDone
    cases stage with
    | done answer => cases inside
    | closing | entering | listing | taking | leaving | finding | looking | making => cases isDone

theorem free_of_call?_none (steady : Steady r s) (alone : s.OthersDone)
    (idle : s.stage.call? = none) : s.threads.holder = none := by
  rcases holder : s.threads.holder with _ | thread
  · rfl
  · cases idle.symm.trans (call?_of_holder steady alone holder)

theorem free_of_outside (steady : Steady r s) (alone : s.OthersDone) {c : Nat}
    (own : s.stage.call? = some c) {stage : Threads.Stage} (there : s.threads.stages[c]? = some stage)
    (outside : stage.holds = false) : s.threads.holder = none := by
  rcases holder : s.threads.holder with _ | thread
  · rfl
  · cases own.symm.trans (call?_of_holder steady alone holder)
    obtain ⟨found, isThere, inside⟩ := steady.held c holder
    cases there.symm.trans isThere
    cases outside.symm.trans inside

/-! The file. -/

/-- The archive can be put into the directory, if the sampler has one. -/
def Writable (s : Sampling) : Prop :=
  ∀ directory, s.sampler.directory = some directory →
    s.files.Admits directory s.threads.registry.archive.fileName

theorem files_persist {directory : String} (given : s.sampler.directory = some directory)
    (last : Bool) :
    (s.persist last).files = (s.threads.registry.archive.writeToDirectory directory s.files).2 := by
  rw [persist, Sampler.persist, given]
  rfl

theorem Writable.persist (writable : s.Writable) (last : Bool) : (s.persist last).Writable := by
  intro directory given
  rw [files_persist (s := s) given]
  exact Archive.admits_writeToDirectory (writable directory given)

theorem Writable.read (writable : s.Writable) (short : s.threads.registry.archive.Addressable)
    (last : Bool) {directory : String} (given : s.sampler.directory = some directory) :
    Archive.readFrom (Path.join directory s.threads.registry.archive.fileName)
      (s.persist last).files = .ok s.threads.registry.archive := by
  rw [files_persist given]
  exact Archive.readFrom_of_admits short (writable directory given)

/-! Until the sampler waits again. -/

/-- Steps until what is under way has come to its end. -/
def stepsLeft (s : Sampling) : Nat :=
  match s.stage with
  | .waiting | .finished _ => 0
  | .persisting _ => 1
  | .sampling call _ =>
      let live := s.threads.registry.live.values.length
      (s.threads.stages[call]?.map (Threads.Stage.stepsLeft live)).getD 0 + 2

theorem stepsLeft_sampling {call : Nat} {last : Bool} {stage : Threads.Stage}
    (samples : s.stage = .sampling call last) (there : s.threads.stages[call]? = some stage) :
    s.stepsLeft = stage.stepsLeft s.threads.registry.live.values.length + 2 := by
  simp only [stepsLeft, samples, there, Option.map_some, Option.getD_some]

/-- What was under way at `s` when the sampler was told to stop has come to its end by `timed`, which is
the rest of a round. -/
structure CaughtUp (s : Sampling) (timed : List Filed) (waiting : Sampling) : Prop where
  stage : waiting.stage = .waiting
  told : waiting.stopping = true
  free : waiting.threads.holder = none
  registry : waiting.threads.registry = s.threads.registry.addSamples (timed.map Filed.sample)
  calls : waiting.threads.stages.length = s.threads.stages.length
  filed : waiting.threads.filed = s.threads.filed ++ timed
  sampler : waiting.sampler = ⟨s.sampler.directory, s.roundsSoFar⟩
  writable : s.Writable → waiting.Writable
  own : ∀ f ∈ timed, s.stage = .sampling f.thread false

theorem catches_up (steady : Steady r s) (alone : s.OthersDone) (running : Running s)
    (enough : moments.length = s.stepsLeft) :
    ∃ timed, CaughtUp s timed (s.run (.stop :: moments.map .proceed)) := by
  let told : Sampling := { s with stopping := true }
  have notLast := running.notLast
  change ∃ timed, CaughtUp s timed (told.proceeds moments)
  cases stage : s.stage with
  | waiting =>
      rw [stepsLeft, stage] at enough
      obtain rfl := List.length_eq_zero_iff.mp enough
      have free := free_of_call?_none steady alone (by rw [stage]; rfl)
      refine ⟨[], stage, rfl, free, (addSamples_nil _).symm, rfl, (List.append_nil _).symm, ?_, id, nofun⟩
      rw [roundsSoFar, stage]
      rfl
  | persisting last =>
      rw [stepsLeft, stage] at enough
      rw [stage] at notLast
      cases notLast
      obtain ⟨now, rfl⟩ := List.length_eq_one_iff.mp enough
      have free := free_of_call?_none steady alone (by rw [stage]; rfl)
      rw [persisting_ends (s := told) stage free now]
      refine ⟨[], rfl, rfl, free, (addSamples_nil _).symm, rfl, (List.append_nil _).symm, ?_,
        fun writable => Writable.persist (s := told) writable false, nofun⟩
      rw [roundsSoFar, stage]
      rfl
  | sampling call last =>
      rw [stage] at notLast
      cases notLast
      have own : s.stage.call? = some call := by rw [stage]; rfl
      obtain ⟨reached, there, isRound⟩ := steady.call call own
      rw [stepsLeft_sampling stage there] at enough
      rcases List.eq_nil_or_concat' moments with rfl | ⟨moments, now, rfl⟩
      · cases enough
      · rw [List.length_append] at enough
        obtain ⟨answer, more, goes, isOwn⟩ := round_ends (s := told) stage there isRound
          (free_of_outside steady alone own there) (Nat.succ.inj enough)
        rw [proceeds_append, goes, persisting_ends rfl rfl now]
        refine ⟨more, rfl, rfl, rfl, rfl, List.length_set, rfl, ?_, fun writable => ?_, ?_⟩
        · rw [roundsSoFar, stage]
          rfl
        · exact Writable.persist (s := told.rounded call false answer more) writable false
        · intro f member
          rw [isOwn f member]
          exact stage
  | finished rounds =>
      rw [stage] at notLast
      cases notLast

/-! The last round. -/

/-- There is one sample of each live instance, in ascending order of their names and with what it holds. -/
structure Complete (r : Registry) (moments : List UInt64) (samples : List Filed) : Prop where
  entries : samples.map (fun f => (f.sample.key, f.number)) = r.live.entries
  ascending : (samples.map (·.sample.key)).Pairwise fun a b => compare a b = .lt
  current : ∀ f ∈ samples, ∃ i, ∃ now ∈ moments,
    r.instance? f.number = some i ∧ f.sample = i.sample now

theorem Taken.complete {call : Nat} {taken : List Filed} (housed : r.Housed)
    (isTaken : Taken r call r.live.values moments taken) : Complete r moments taken := by
  have current : ∀ f ∈ taken, ∃ i, ∃ now ∈ moments,
      r.instance? f.number = some i ∧ f.sample = i.sample now :=
    fun f member => (isTaken.each f member).2
  let entry? (number : Nat) : Option (InstanceKey × Nat) :=
    (r.instance? number).map fun i => (i.key, number)
  have ofTaken : ∀ f ∈ taken, entry? f.number = some (f.sample.key, f.number) := by
    intro f member
    obtain ⟨i, now, -, found, same⟩ := current f member
    rw [same]
    exact Option.map_eq_some_iff.mpr ⟨i, found, rfl⟩
  have ofLive : ∀ entry ∈ r.live.entries, entry? entry.2 = some entry := by
    intro entry member
    obtain ⟨i, found, named⟩ := housed entry.1 entry.2 ((Table.mem_entries_iff _ _ _).mp member)
    exact Option.map_eq_some_iff.mpr ⟨i, found, congrArg (·, entry.2) named⟩
  have entries : taken.map (fun f => (f.sample.key, f.number)) = r.live.entries :=
    calc taken.map (fun f => (f.sample.key, f.number))
      _ = r.live.values.filterMap entry? :=
        isTaken.map_eq ofTaken fun number absent => Option.map_eq_none_iff.mpr absent
      _ = r.live.entries.filterMap fun entry => entry? entry.2 := List.filterMap_map
      _ = r.live.entries := by rw [List.filterMap_congr ofLive, List.filterMap_some]
  have keys : taken.map (·.sample.key) = r.live.keys := by
    rw [Table.keys, ← entries, List.map_map]
    rfl
  exact ⟨entries, keys ▸ r.live.pairwise_keys, current⟩

/-- What there is at the end, of a sampler that was at `s` when it was told to stop: `timed` is from the
round that was under way. -/
structure Stopped (s : Sampling) (moments : List UInt64) (timed last : List Filed)
    (e : Sampling) : Prop where
  stage : e.stage = .finished (s.roundsSoFar + 1)
  registry : e.threads.registry = s.threads.registry.addSamples ((timed ++ last).map Filed.sample)
  filed : e.threads.filed = s.threads.filed ++ timed ++ last
  timed : ∀ f ∈ timed, s.stage = .sampling f.thread false
  fresh : ∀ f ∈ last, f.thread = s.threads.stages.length
  last : Complete s.threads.registry moments last
  read : s.Writable → e.threads.registry.archive.Addressable →
    ∀ directory, s.sampler.directory = some directory →
      Archive.readFrom (Path.join directory s.threads.registry.archive.fileName) e.files =
        .ok e.threads.registry.archive

theorem addSamples_append (r : Registry) (first second : List Sample) :
    r.addSamples (first ++ second) = (r.addSamples first).addSamples second := by
  simp only [Registry.addSamples, Archive.addSamples, List.append_assoc]

theorem last_round_ends (housed : s.threads.registry.Housed) (caught : CaughtUp s timed waiting)
    (enough : moments.length = s.threads.registry.live.values.length + 7) :
    ∃ last, Stopped s moments timed last (waiting.proceeds moments) := by
  -- All but the calls, the files and what they admit is known of the one that waits.
  obtain ⟨⟨registry, holder, stages, filed⟩, files, sampler, stopping, stage⟩ := waiting
  obtain ⟨rfl, rfl, rfl, rfl, calls, rfl, rfl, writable, own⟩ := caught
  cases moments with
  | nil => cases enough
  | cons now moments =>
      let w : Sampling := ⟨⟨s.threads.registry.addSamples (timed.map Filed.sample), none, stages,
        s.threads.filed ++ timed⟩, files, ⟨s.sampler.directory, s.roundsSoFar⟩, true, .waiting⟩
      have fewer : moments.length = w.threads.registry.live.values.length + 6 := Nat.succ.inj enough
      obtain ⟨last, goes, isTaken⟩ := begun_round_ends rfl true fewer
      have ofStopped : Taken s.threads.registry stages.length s.threads.registry.live.values
          (now :: moments) last :=
        .mono ⟨isTaken.each, isTaken.numbers⟩ (List.subset_cons_self _ _)
      have added : s.threads.registry.addSamples ((timed ++ last).map Filed.sample) =
          w.threads.registry.addSamples (last.map Filed.sample) := by
        rw [List.map_append, addSamples_append]
      refine ⟨last, ?_⟩
      change Stopped s _ timed last ((w.beginRound true).proceeds moments)
      rw [goes]
      refine ⟨rfl, added.symm, rfl, own, ?_, ofStopped.complete housed, ?_⟩
      · intro f member
        rw [(ofStopped.each f member).1, calls]
      · intro room short directory given
        let rounded := (w.beginRound true).rounded stages.length true (.sampled last.length) last
        have stillRoom : rounded.Writable := writable room
        exact stillRoom.read short true given

theorem Complete.mono {samples : List Filed} {more : List UInt64}
    (complete : Complete r moments samples) (within : moments ⊆ more) : Complete r more samples := by
  refine ⟨complete.entries, complete.ascending, fun f member => ?_⟩
  obtain ⟨i, now, isMoment, there⟩ := complete.current f member
  exact ⟨i, now, within isMoment, there⟩

theorem stop_ends (steady : Steady r s) (alone : s.OthersDone) (running : Running s)
    (enough : s.stepsLeft + (s.threads.registry.live.values.length + 7) ≤ moments.length) :
    ∃ timed last, Stopped s moments timed last (s.run (.stop :: moments.map .proceed)) := by
  let rest := moments.drop s.stepsLeft
  let live := s.threads.registry.live.values.length
  have split : moments = moments.take s.stepsLeft ++ (rest.take (live + 7) ++ rest.drop (live + 7)) := by
    rw [List.take_append_drop, List.take_append_drop]
  have remain : live + 7 ≤ rest.length := by
    rw [List.length_drop]
    omega
  obtain ⟨timed, caught⟩ :=
    catches_up steady alone running (List.length_take_of_le (Nat.le_of_add_right_le enough))
  obtain ⟨last, stopped⟩ :=
    last_round_ends steady.orderly.housed caught (List.length_take_of_le remain)
  -- It has finished by then, so that the steps behind these do nothing.
  have ends : s.run (.stop :: moments.map .proceed) =
      (s.run (.stop :: (moments.take s.stepsLeft).map .proceed)).proceeds (rest.take (live + 7)) := by
    conv_lhs => rw [split]
    rw [List.map_append, ← List.cons_append, run_append, ← proceeds, proceeds_append,
      proceeds_finished stopped.stage]
  have within : rest.take (live + 7) ⊆ moments :=
    List.Subset.trans (List.take_subset _ _) (List.drop_subset _ _)
  rw [ends]
  exact ⟨timed, last, { stopped with last := stopped.last.mono within }⟩

/-! Without a directory. -/

/-- The sampler only waits, for the archive that it has to write. -/
def waits (s : Sampling) : Event → Bool
  | .proceed _ =>
      match s.stage with
      | .persisting _ => s.sampler.directory.isSome && s.threads.holder.isSome
      | _ => false
  | _ => false

/-- Some events but for the steps by which the sampler only waits for the archive. -/
def heeded (s : Sampling) : List Event → List Event
  | [] => []
  | event :: rest =>
      if s.waits event then (s.step event).heeded rest else event :: (s.step event).heeded rest

/-- The sampler with other files and no directory. -/
def undirected (s : Sampling) (files : Files) : Sampling :=
  { s with files, sampler := ⟨none, s.sampler.rounds⟩ }

theorem step_of_waits (waits : s.waits event = true) : s.step event = s := by
  cases event with
  | proceed now =>
      rw [step, proceed]
      cases stage : s.stage with
      | persisting last =>
          rw [Sampling.waits, stage] at waits
          exact if_pos waits
      | waiting | sampling | finished => simp [Sampling.waits, stage] at waits
  | elapse | stop | statistics | disk => cases waits

theorem step_undirected (heeds : s.waits event = false) (files : Files) :
    ∃ after, (s.undirected files).step event = (s.step event).undirected after := by
  cases event with
  | stop | statistics event => exact ⟨files, rfl⟩
  | disk others => exact ⟨others, rfl⟩
  | elapse =>
      refine ⟨files, ?_⟩
      rw [step, step, apply_ite (undirected · files)]
      rfl
  | proceed now =>
      refine ⟨files, ?_⟩
      obtain ⟨threads, own, sampler, stopping, stage⟩ := s
      cases stage with
      | waiting => cases stopping <;> rfl
      | sampling call last =>
          simp only [step, proceed, undirected]
          split <;> rfl
      | persisting last =>
          simp only [waits] at heeds
          simp only [step, proceed, undirected, heeds]
          rfl
      | finished rounds => rfl

theorem run_undirected (s : Sampling) (events : List Event) (files : Files) :
    ∃ after, (s.undirected files).run (s.heeded events) = (s.run events).undirected after := by
  -- What the two find among their files differs after each round, and neither reads it.
  induction events generalizing s files with
  | nil => exact ⟨files, rfl⟩
  | cons event events induction =>
      rw [heeded]
      cases waits : s.waits event with
      | true =>
          have same := step_of_waits waits
          obtain ⟨after, later⟩ := induction s files
          refine ⟨after, ?_⟩
          rw [if_pos rfl, same, later, run, run, List.foldl_cons, same]
      | false =>
          obtain ⟨between, first⟩ := step_undirected waits files
          obtain ⟨after, later⟩ := induction (s.step event) between
          refine ⟨after, ?_⟩
          rw [if_neg Bool.false_ne_true, run, List.foldl_cons, first]
          exact later

theorem Move.directory (move : Move s event next) :
    next.sampler.directory = s.sampler.directory := by
  cases move with
  | idle | begun | moved | counted | persisted | told | others => rfl

theorem directory_run (s : Sampling) (events : List Event) :
    (s.run events).sampler.directory = s.sampler.directory := by
  induction events generalizing s with
  | nil => rfl
  | cons event events induction => exact (induction (s.step event)).trans (move s event).directory

/-! A sampler with nobody beside it, and time that stands still in each round. -/

theorem Taken.samples {call : Nat} {numbers : List Nat} {taken : List Filed} {now : UInt64}
    (isTaken : Taken r call numbers moments taken) (still : ∀ moment ∈ moments, moment = now) :
    taken.map Filed.sample = (numbers.filterMap r.instance?).map fun i => i.sample now := by
  let sample? (number : Nat) : Option Sample := (r.instance? number).map fun i => i.sample now
  have each : ∀ f ∈ taken, sample? f.number = some f.sample := by
    intro f member
    obtain ⟨-, i, moment, isMoment, found, same⟩ := isTaken.each f member
    rw [same, still moment isMoment]
    exact Option.map_eq_some_iff.mpr ⟨i, found, rfl⟩
  rw [List.map_filterMap]
  exact isTaken.map_eq each fun number absent => Option.map_eq_none_iff.mpr absent

theorem round_alone (free : s.threads.holder = none) (last : Bool) (now : UInt64)
    (enough : moments = List.replicate (s.threads.registry.live.values.length + 6) now) :
    let e := (s.beginRound last).proceeds moments
    (e.sampler, e.threads.registry, e.files) = s.sampler.tick now s.threads.registry s.files ∧
      e.stage = if last then .finished e.sampler.rounds else .waiting := by
  intro e
  have count : moments.length = s.threads.registry.live.values.length + 6 := by
    rw [enough, List.length_replicate]
  obtain ⟨more, goes, isTaken⟩ := begun_round_ends free last count
  have samples := isTaken.samples fun moment member => List.eq_of_mem_replicate (enough ▸ member)
  have registry : s.threads.registry.addSamples (more.map Filed.sample) =
      s.threads.registry.sampleAll now := by
    rw [samples]
    rfl
  have ends : e = _ := goes
  rw [ends, Sampler.tick, ← registry]
  exact ⟨rfl, rfl⟩

/-- A timed round. -/
theorem tick_alone (waits : s.stage = .waiting) (untold : s.stopping = false)
    (free : s.threads.holder = none) (now : UInt64) :
    let moments := List.replicate (s.threads.registry.live.values.length + 6) now
    let e := s.run (.elapse :: moments.map .proceed)
    (e.sampler, e.threads.registry, e.files) = s.sampler.tick now s.threads.registry s.files ∧
      e.stage = .waiting := by
  intro moments e
  have begun : s.step .elapse = s.beginRound false := if_pos ⟨waits, untold⟩
  have ends : e = (s.beginRound false).proceeds moments := by
    rw [proceeds, ← begun]
    rfl
  rw [ends]
  exact round_alone free false now rfl

/-- The last one. -/
theorem stop_alone (waits : s.stage = .waiting) (free : s.threads.holder = none) (now : UInt64) :
    let moments := List.replicate (s.threads.registry.live.values.length + 7) now
    let e := s.run (.stop :: moments.map .proceed)
    let (rounds, registry, files) := s.sampler.stop now s.threads.registry s.files
    e.stage = .finished rounds ∧ e.threads.registry = registry ∧ e.files = files := by
  intro moments e
  let told : Sampling := { s with stopping := true }
  have begun : told.proceed now = told.beginRound true := by
    rw [proceed]
    simp only [told, waits]
    rfl
  have ends : e = (told.beginRound true).proceeds
      (List.replicate (s.threads.registry.live.values.length + 6) now) := by
    rw [← begun]
    rfl
  obtain ⟨goes, stage⟩ := round_alone (s := told) free true now rfl
  change (_, _, _) = s.sampler.tick now s.threads.registry s.files at goes
  rw [← ends] at goes stage
  rw [Sampler.stop, ← goes]
  exact ⟨stage, rfl, rfl⟩

/-- Whatever is done while a sampler runs, when it has been told to stop and nobody else has a call under way
it finishes what it is at, takes one round more of everything that is live, and writes the archive that
this leaves. There is the same in the archive without a directory. -/
theorem stop_takes_last_round (processId : UInt32) (host : String) (history : List Registry.Event)
    (files : Files) (directory : Option String) (before : List Event) (untold : .stop ∉ before) :
    let r := (Registry.empty processId host).after history
    let first := start (.start r) files directory
    let s := first.run before
    s.OthersDone → ∀ moments : List UInt64,
      s.stepsLeft + (s.threads.registry.live.values.length + 7) ≤ moments.length →
      let events := before ++ .stop :: moments.map .proceed
      let e := first.run events
      e.stage = .finished (first.roundsBegun before + 1) ∧
      (∃ timed last,
        e.threads.registry = s.threads.registry.addSamples ((timed ++ last).map Filed.sample) ∧
        (∀ f ∈ timed, s.stage = .sampling f.thread false) ∧
        Complete s.threads.registry moments last) ∧
      (∀ given, directory = some given →
        s.files.Admits given s.threads.registry.archive.fileName →
        e.threads.registry.archive.Addressable →
        Archive.readFrom (Path.join given s.threads.registry.archive.fileName) e.files =
          .ok e.threads.registry.archive) ∧
      ∀ others, ∃ after,
        (start (.start r) others none).run (first.heeded events) = e.undirected after := by
  intro r first s alone moments enough events e
  have sound : Registry.Sound r := ((Registry.sound_empty processId host).after history).1
  have steady : Steady r s := (steady_start sound files directory).run before
  have running : Running s := Running.run (s := first) ⟨rfl, rfl⟩ untold
  have rounds : s.roundsSoFar = first.roundsBegun before :=
    (roundsSoFar_run first before).trans (Nat.zero_add _)
  have given : s.sampler.directory = directory := directory_run first before
  obtain ⟨timed, last, stopped⟩ := stop_ends steady alone running enough
  have ends : s.run (.stop :: moments.map .proceed) = e := (run_append first before _).symm
  rw [ends] at stopped
  refine ⟨?_, ⟨timed, last, stopped.registry, stopped.timed, stopped.last⟩, ?_,
    run_undirected first events⟩
  · rw [← rounds]
    exact stopped.stage
  · intro path isGiven room short
    refine stopped.read ?_ short path (given.trans isGiven)
    intro other isOther
    cases (given.trans isGiven).symm.trans isOther
    exact room

/-- It is told to stop between the two samples of a timed round, and a call to close an instance has come
to its end. -/
theorem stop_takes_last_round_amid_round :
    let t : StatisticsType := ⟨"Cache", [⟨"puts", "operations", true, .longCounter⟩]⟩
    let history : List Registry.Event :=
      [.register t, .obtain "Cache" (.thread 2) none none, .obtain "Cache" (.thread 1) none none,
        .obtain "Cache" (.thread 3) none none]
    let before : List Event :=
      [.statistics (.call (.close 2)), .statistics (.proceed 0 1), .statistics (.proceed 0 2), .elapse,
        .proceed 3, .statistics (.proceed 0 4), .statistics (.proceed 0 5), .statistics (.proceed 0 6),
        .proceed 7, .proceed 8, .statistics (.update 0 (.incrementBy "puts" 5)), .proceed 9,
        .statistics (.update 1 (.increment "puts"))]
    let moments : List UInt64 := [10, 11, 12, 13, 14, 15, 16, 17, 18, 19, 20, 21, 22, 23]
    let r := (Registry.empty 1 "node").after history
    let first := start (.start r) .empty (some ".")
    let s := first.run before
    let e := first.run (before ++ .stop :: moments.map .proceed)
    s.stage = .sampling 1 false ∧ e.stage = .finished 2 ∧
      e.threads.registry.archive.samples =
        [⟨"Cache", "thread_3", 4, [.ofNat 0]⟩, ⟨"Cache", "thread_1", 9, [.ofNat 0]⟩,
          ⟨"Cache", "thread_2", 10, [.ofNat 5]⟩, ⟨"Cache", "thread_1", 18, [.ofNat 1]⟩,
          ⟨"Cache", "thread_2", 19, [.ofNat 5]⟩] ∧
      Archive.readFrom "./statArchive-node-1.bin" e.files = .ok e.threads.registry.archive := by
  intro t history before moments
  have made : Files.empty.makeDirectories "." = (true, .empty) := by
    have clean : ".".contains '\x00' = false := by cbv
    have steps : Path.steps "." = [] := by decide +kernel
    simp [Files.makeDirectories, clean, steps, Files.makeSteps]
  have named : (Path.pieces "").all Files.isName = true := by cbv
  have fresh : Files.empty.names "" = [] := by decide +kernel
  have admits (a : Archive) (files : Files) (name : a.fileName = "statArchive-node-1.bin")
      (noSlash : '/' ∉ a.host.toList) (untouched : files = .empty) : files.Admits "." a.fileName := by
    have fits : Files.isName (a.fileName ++ ".tmp") = true := by
      rw [name]
      cbv
    rw [untouched]
    exact Archive.admits_of_room made (by decide +kernel) named (Archive.room_of_fresh fresh)
      ⟨noSlash, fits⟩
  have path (name : String) (same : name = "statArchive-node-1.bin") :
      Path.join "." name = "./statArchive-node-1.bin" := by
    rw [same]
    decide +kernel
  obtain ⟨stage, -, read, -⟩ := stop_takes_last_round 1 "node" history .empty (some ".") before
    (by decide) (by decide +kernel) moments (by decide +kernel)
  have reads := read "." rfl (admits _ _ (by decide +kernel) (by decide +kernel) (by decide +kernel))
    (by decide +kernel)
  rw [path _ (by decide +kernel)] at reads
  dsimp only
  exact ⟨by decide +kernel, stage.trans (by decide +kernel), by decide +kernel, reads⟩

end Sampling

end Coordination
