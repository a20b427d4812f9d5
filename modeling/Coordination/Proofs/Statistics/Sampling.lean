import Coordination.Proofs.Statistics.LastSample
import Coordination.Proofs.Statistics.Persistence
import Coordination.Statistics.Sampling

/-!
The rounds of a sampler. Whatever the other threads do, each of its rounds is a call like theirs, and what
it writes never bears on what it samples. The round that it takes when it is stopped ends the archive.
-/

namespace Coordination

namespace Threads

variable {s next : Threads} {event : Event} {c thread : Nat} {stage : Stage}

/-! The thread that is in the archive. -/

/-- Whoever keeps the archive is in there. -/
def Held (s : Threads) : Prop :=
  ∀ thread, s.holder = some thread → ∃ stage, s.stages[thread]? = some stage ∧ stage.holds = true

theorem held_goTo_outside (held : Held s) (there : s.stages[thread]? = some stage)
    (outside : stage.holds = false) {r : Registry} (new : Stage) :
    Held ({ s with registry := r }.goTo thread new) := by
  intro other holds
  obtain ⟨found, isThere, inside⟩ := held other holds
  refine ⟨found, (List.getElem?_set_ne ?_).trans isThere, inside⟩
  rintro rfl
  cases there.symm.trans isThere
  exact absurd inside (by rw [outside]; exact Bool.false_ne_true)

theorem held_goTo_inside {holder : Option Nat} {filed : List Filed} {r : Registry}
    (held : ∀ other, other ≠ thread → holder = some other → s.holder = some other)
    (old : Held s) (there : s.stages[thread]? = some stage) {new : Stage} (inside : new.holds = true) :
    Held (({ s with registry := r, holder := holder, filed := filed } : Threads).goTo thread new) := by
  intro other holds
  by_cases own : other = thread
  · subst own
    exact ⟨new, List.getElem?_set_self (List.getElem?_eq_some_iff.mp there).1, inside⟩
  · obtain ⟨found, isThere, alsoInside⟩ := old other (held other own holds)
    exact ⟨found, (List.getElem?_set_ne (Ne.symm own)).trans isThere, alsoInside⟩

theorem Move.held (move : Move s event next) (held : Held s) : Held next := by
  cases move with
  | idle | updated found done => exact held
  | called =>
      intro thread holds
      obtain ⟨stage, there, inside⟩ := held thread holds
      exact ⟨stage, (List.getElem?_append_left (List.getElem?_eq_some_iff.mp there).1).trans there, inside⟩
  | removed there found live | refused there | found there known | missed there
  | made there absent => exact held_goTo_outside held there rfl _
  | @told thread now stage result there asks =>
      refine held_goTo_outside held there ?_ _
      cases stage with
      | finding | looking | making | done => rfl
      | closing | entering | listing | taking | leaving => cases asks
  | @entered thread now purpose there free =>
      refine held_goTo_inside (fun other differs holds => ?_) held there ?_
      · exact absurd (Option.some.inj holds).symm differs
      · cases purpose <;> rfl
  | listed there | took there | filed there =>
      exact held_goTo_inside (fun other _ holds => holds) held there rfl
  | left there => exact fun other holds => nomatch holds

/-! Calls for a round. -/

/-- A thread that has called for a round may be at this. -/
def Stage.IsRound (c : Nat) : Stage → Prop
  | .taking .round _ taken => ∀ f ∈ taken, f.thread = c
  | .entering .round | .listing | .leaving (.sampled _) | .done (.sampled _) => True
  | _ => False

/-- Steps until its call is done, with so many live instances and nobody else in the archive. -/
def Stage.stepsLeft (live : Nat) : Stage → Nat
  | .entering _ => live + 4
  | .listing => live + 3
  | .taking _ left _ => left.length + 2
  | .leaving _ => 1
  | _ => 0

theorem Move.isRound (move : Move s event next) (there : s.stages[c]? = some stage)
    (isRound : stage.IsRound c) : ∃ stage, next.stages[c]? = some stage ∧ stage.IsRound c := by
  -- Nobody else takes the thread further.
  by_cases own : ∃ now, event = .proceed c now
  · obtain ⟨now, rfl⟩ := own
    cases move with
    | idle => exact ⟨stage, there, isRound⟩
    | removed closing found live =>
        cases there.symm.trans closing
        exact isRound.elim
    | refused closing =>
        cases there.symm.trans closing
        exact isRound.elim
    | @entered _ _ purpose enters free =>
        cases there.symm.trans enters
        cases purpose with
        | round => exact ⟨_, stage_goTo enters _, trivial⟩
        | last number => exact isRound.elim
    | listed lists => exact ⟨_, stage_goTo lists _, nofun⟩
    | @took _ number _ purpose left taken takes =>
        cases there.symm.trans takes
        cases purpose with
        | round =>
            refine ⟨_, stage_goTo takes _, List.forall_mem_append.mpr ⟨isRound, ?_⟩⟩
            exact List.forall_mem_map.mpr fun i _ => rfl
        | last number => exact isRound.elim
    | @filed _ _ purpose taken takes =>
        cases there.symm.trans takes
        cases purpose with
        | round => exact ⟨_, stage_goTo takes _, trivial⟩
        | last number => exact isRound.elim
    | @left _ _ answer leaves =>
        cases there.symm.trans leaves
        cases answer with
        | sampled count => exact ⟨_, stage_goTo leaves _, trivial⟩
        | closed | obtained => exact isRound.elim
    | told obtaining asks =>
        cases there.symm.trans obtaining
        cases stage with
        | finding | looking | making => exact isRound.elim
        | closing | entering | listing | taking | leaving => cases asks
        | done answer =>
            cases answer with
            | sampled => cases asks
            | closed | obtained => exact isRound.elim
    | found finds known =>
        cases there.symm.trans finds
        exact isRound.elim
    | missed looks =>
        cases there.symm.trans looks
        exact isRound.elim
    | made makes absent =>
        cases there.symm.trans makes
        exact isRound.elim
  · exact ⟨stage, move.stage_of_elsewhere there fun now same => own ⟨now, same⟩, isRound⟩

end Threads

namespace Sampling

open Threads (Filed Held)

variable {s next : Sampling} {event : Event} {c : Nat} {last : Bool} {now : UInt64}

theorem run_append (s : Sampling) (first second : List Event) :
    s.run (first ++ second) = (s.run first).run second := List.foldl_append

theorem run_concat (s : Sampling) (events : List Event) (event : Event) :
    s.run (events ++ [event]) = (s.run events).step event := run_append s events [event]

/-! What one event does. -/

inductive Move (s : Sampling) : Event → Sampling → Prop
  | idle {event : Event} (begins : s.begins event = false) : Move s event s
  | begun {event : Event} (begins : s.begins event = true) : Move s event (s.beginRound s.stopping)
  | moved {event : Event} (begins : s.begins event = false) (moves : Threads.Event) :
      Move s event { s with threads := s.threads.step moves }
  | counted {event : Event} {call : Nat} {last : Bool} (samples : s.stage = .sampling call last) :
      Move s event (s.countRound last)
  | persisted {event : Event} {last : Bool} (persists : s.stage = .persisting last) :
      Move s event (s.persist last)
  | told : Move s .stop { s with stopping := true }
  | others {files : Files} : Move s (.disk files) { s with files }

theorem begins_of_stage {stage : Stage} (there : s.stage = stage) (busy : stage ≠ .waiting)
    (event : Event) : s.begins event = false := by
  simp [begins, there, busy]

theorem waiting_of_begins (begins : s.begins event = true) : s.stage = .waiting :=
  of_decide_eq_true (Bool.and_eq_true_iff.mp begins).1

theorem move (s : Sampling) (event : Event) : Move s event (s.step event) := by
  cases event with
  | elapse =>
      rw [step]
      split
      · rename_i waits
        have begins : s.begins .elapse = true := by simp [begins, waits]
        have begun : Move s .elapse (s.beginRound s.stopping) := .begun begins
        rwa [waits.2] at begun
      · rename_i busy
        refine .idle ?_
        rw [Bool.eq_false_iff]
        intro begins
        simp [Sampling.begins] at begins
        exact busy begins
  | stop => exact .told
  | statistics event => exact .moved (by simp [begins]) event
  | disk files => exact .others
  | proceed now =>
      rw [step, proceed]
      cases there : s.stage with
      | waiting =>
          dsimp only
          cases told : s.stopping with
          | true =>
              have begun : Move s (.proceed now) (s.beginRound s.stopping) :=
                .begun (by simp [begins, there, told])
              rwa [told] at begun
          | false => exact .idle (by simp [begins, told])
      | sampling call last =>
          dsimp only
          split
          · exact .counted there
          · rw [← there]
            exact .moved (begins_of_stage there (by simp) _) _
      | persisting last =>
          dsimp only
          split
          · exact .idle (begins_of_stage there (by simp) _)
          · exact .persisted there
      | finished rounds => exact .idle (begins_of_stage there (by simp) _)

/-! What is always so. -/

structure Steady (r : Registry) (s : Sampling) : Prop where
  orderly : Threads.Orderly r s.threads
  held : Held s.threads
  call : ∀ call, s.stage.call? = some call →
    ∃ stage, s.threads.stages[call]? = some stage ∧ stage.IsRound call

theorem Move.steady {r : Registry} (move : Move s event next) (steady : Steady r s) :
    Steady r next := by
  obtain ⟨orderly, held, call⟩ := steady
  cases move with
  | idle | told | others => exact ⟨orderly, held, call⟩
  | begun =>
      have calls := Threads.move s.threads (.call .sampleAll)
      refine ⟨calls.orderly orderly, calls.held held, ?_⟩
      rintro call ⟨⟩
      exact ⟨_, List.getElem?_concat_length, trivial⟩
  | moved begins moves =>
      have moves := Threads.move s.threads moves
      refine ⟨moves.orderly orderly, moves.held held, fun own isCall => ?_⟩
      obtain ⟨stage, there, isRound⟩ := call own isCall
      exact moves.isRound there isRound
  | counted samples => exact ⟨orderly, held, nofun⟩
  | @persisted _ last persists =>
      refine ⟨orderly, held, ?_⟩
      cases last <;> exact nofun

/-- The rounds that have been counted, and the one that is under way. -/
def roundsSoFar (s : Sampling) : Nat := s.sampler.rounds + s.stage.call?.isSome.toNat

theorem Move.roundsSoFar (move : Move s event next) :
    next.roundsSoFar = s.roundsSoFar + (s.begins event).toNat := by
  cases move with
  | idle begins | moved begins =>
      rw [begins]
      rfl
  | begun begins =>
      rw [begins, Sampling.roundsSoFar, Sampling.roundsSoFar, waiting_of_begins begins]
      rfl
  | counted samples =>
      rw [begins_of_stage samples (by simp), Sampling.roundsSoFar, Sampling.roundsSoFar, samples]
      rfl
  | @persisted _ last persists =>
      rw [begins_of_stage persists (by simp), Sampling.roundsSoFar, Sampling.roundsSoFar, persists]
      cases last <;> rfl
  | told =>
      have begins : s.begins .stop = false := by simp [begins]
      rw [begins]
      rfl
  | @others files =>
      have begins : s.begins (.disk files) = false := by simp [begins]
      rw [begins]
      rfl

theorem steady_start {r : Registry} (sound : Registry.Sound r) (files : Files)
    (directory : Option String) : Steady r (start (.start r) files directory) where
  orderly := Threads.orderly_start sound
  held _ holds := nomatch holds
  call _ isCall := nomatch isCall

theorem Steady.run {r : Registry} (steady : Steady r s) (events : List Event) :
    Steady r (s.run events) := by
  induction events generalizing s with
  | nil => exact steady
  | cons event events induction => exact induction ((move s event).steady steady)

theorem roundsSoFar_run (s : Sampling) (events : List Event) :
    (s.run events).roundsSoFar = s.roundsSoFar + s.roundsBegun events := by
  induction events generalizing s with
  | nil => rfl
  | cons event events induction =>
      have first := (move s event).roundsSoFar
      have later := induction (s.step event)
      rw [run, List.foldl_cons, ← run, later, first, roundsBegun, Nat.add_assoc]

/-- It takes no round after this one. -/
def Stage.isLast : Stage → Bool
  | .waiting => false
  | .sampling _ last | .persisting last => last
  | .finished _ => true

/-- The sampler has not been told to stop. -/
structure Running (s : Sampling) : Prop where
  untold : s.stopping = false
  notLast : s.stage.isLast = false

theorem Move.running (move : Move s event next) (running : Running s) (untold : event ≠ .stop) :
    Running next := by
  obtain ⟨still, notLast⟩ := running
  cases move with
  | idle | moved | others => exact ⟨still, notLast⟩
  | begun => exact ⟨still, still⟩
  | counted samples =>
      rw [samples] at notLast
      exact ⟨still, notLast⟩
  | persisted persists =>
      rw [persists] at notLast
      cases notLast
      exact ⟨still, rfl⟩
  | told => exact absurd rfl untold

theorem Running.run (running : Running s) {events : List Event} (untold : .stop ∉ events) :
    Running (s.run events) := by
  induction events generalizing s with
  | nil => exact running
  | cons event events induction =>
      rw [List.mem_cons, not_or] at untold
      obtain ⟨first, later⟩ := untold
      exact induction ((move s event).running running (Ne.symm first)) later

/-! Rounds that nobody disturbs. -/

/-- The sampler takes a step at each of these moments. -/
def proceeds (s : Sampling) (moments : List UInt64) : Sampling := s.run (moments.map .proceed)

theorem proceeds_cons (s : Sampling) (now : UInt64) (moments : List UInt64) :
    s.proceeds (now :: moments) = (s.proceed now).proceeds moments := rfl

theorem proceeds_append (s : Sampling) (first second : List UInt64) :
    s.proceeds (first ++ second) = (s.proceeds first).proceeds second := by
  rw [proceeds, List.map_append, run_append]
  rfl

/-- The call for a round has come to its end, and what it `added` is in the archive. -/
def rounded (s : Sampling) (call : Nat) (last : Bool) (answer : Threads.Answer) (added : List Filed) :
    Sampling :=
  { s with
    threads := ⟨s.threads.registry.addSamples (added.map Filed.sample), none,
      s.threads.stages.set call (.done answer), s.threads.filed ++ added⟩
    sampler := { s.sampler with rounds := s.sampler.rounds + 1 }
    stage := .persisting last }

/-- Samples of the instances of these numbers, each taken by the call at one of the moments. -/
structure Taken (r : Registry) (call : Nat) (numbers : List Nat) (moments : List UInt64)
    (taken : List Filed) : Prop where
  each : ∀ f ∈ taken, f.thread = call ∧
    ∃ i, ∃ now ∈ moments, r.instance? f.number = some i ∧ f.sample = i.sample now
  numbers : taken.map (·.number) = numbers.filter fun number => (r.instance? number).isSome

theorem Taken.mono {r : Registry} {numbers : List Nat} {moments more : List UInt64}
    {taken : List Filed} (isTaken : Taken r c numbers moments taken) (within : moments ⊆ more) :
    Taken r c numbers more taken := by
  refine ⟨fun f member => ?_, isTaken.numbers⟩
  obtain ⟨thread, i, now, isMoment, there⟩ := isTaken.each f member
  exact ⟨thread, i, now, within isMoment, there⟩

/-- What the samples show, in the order of the numbers. -/
theorem Taken.map_eq {α : Type} {r : Registry} {numbers : List Nat} {moments : List UInt64}
    {taken : List Filed} (isTaken : Taken r c numbers moments taken) {shown : Filed → α}
    {ofNumber? : Nat → Option α} (each : ∀ f ∈ taken, ofNumber? f.number = some (shown f))
    (absent : ∀ number, r.instance? number = none → ofNumber? number = none) :
    taken.map shown = numbers.filterMap ofNumber? := by
  have present (number : Nat) :
      (if (r.instance? number).isSome then ofNumber? number else none) = ofNumber? number := by
    cases found : r.instance? number with
    | none => exact (absent number found).symm
    | some i => rfl
  calc taken.map shown
    _ = taken.filterMap fun f => ofNumber? f.number := by
      rw [List.filterMap_congr each, ← List.filterMap_eq_map]
      rfl
    _ = (taken.map (·.number)).filterMap ofNumber? := by
      rw [List.filterMap_map]
      rfl
    _ = numbers.filterMap ofNumber? := by
      rw [isTaken.numbers, List.filterMap_filter]
      exact List.filterMap_congr fun number _ => present number

theorem proceed_sampling {stage : Threads.Stage} (samples : s.stage = .sampling c last)
    (there : s.threads.stages[c]? = some stage) (busy : stage.isDone = false) (now : UInt64) :
    s.proceed now = { s with threads := s.threads.proceed c now stage } := by
  have steps := Threads.step_proceed there now
  rw [proceed, samples]
  dsimp only
  split
  · rename_i done
    cases there.symm.trans done
    cases busy
  · rw [steps]

theorem proceed_sampled {answer : Threads.Answer} (samples : s.stage = .sampling c last)
    (there : s.threads.stages[c]? = some (.done answer)) (now : UInt64) :
    s.proceed now = s.countRound last := by
  rw [proceed, samples]
  simp only [there]

theorem addSamples_nil (r : Registry) : r.addSamples [] = r := by
  rw [Registry.addSamples, Archive.addSamples, List.append_nil]

theorem sampled_ends {answer : Threads.Answer} (samples : s.stage = .sampling c last)
    (there : s.threads.stages[c]? = some (.done answer)) (free : s.threads.holder = none)
    (now : UInt64) : s.proceeds [now] = s.rounded c last answer [] := by
  have same : s.threads.stages.set c (.done answer) = s.threads.stages := by
    obtain ⟨inside, here⟩ := List.getElem?_eq_some_iff.mp there
    rw [← here, List.set_getElem_self]
  rw [proceeds_cons, proceed_sampled samples there, countRound, rounded, List.map_nil, addSamples_nil,
    same, List.append_nil, ← free]
  rfl

theorem leaving_ends {answer : Threads.Answer} (samples : s.stage = .sampling c last)
    (there : s.threads.stages[c]? = some (.leaving answer)) (first second : UInt64) :
    s.proceeds [first, second] = s.rounded c last answer [] := by
  have ends := sampled_ends (s := { s with threads := s.threads.leave c answer }) samples
    (Threads.stage_goTo there _) rfl second
  rw [proceeds_cons, proceed_sampling samples there rfl, Threads.proceed, ends]
  simp only [rounded, Threads.leave, Threads.goTo, List.set_set]

theorem taking_ends {left : List Nat} {taken : List Filed} {moments : List UInt64}
    (samples : s.stage = .sampling c last)
    (there : s.threads.stages[c]? = some (.taking .round left taken))
    (enough : moments.length = left.length + 3) :
    ∃ more, s.proceeds moments =
        s.rounded c last (.sampled (taken ++ more).length) (taken ++ more) ∧
      Taken s.threads.registry c left moments more := by
  induction left generalizing s taken moments with
  | nil =>
      obtain ⟨first, second, third, rfl⟩ := List.length_eq_three.mp enough
      refine ⟨[], ?_, nofun, rfl⟩
      have ends := leaving_ends (s := { s with threads := s.threads.file c .round taken }) samples
        (Threads.stage_goTo there _) second third
      rw [proceeds_cons, proceed_sampling samples there rfl, Threads.proceed, ends]
      simp only [rounded, Threads.file, Threads.goTo, Threads.Purpose.answer, List.set_set, List.map_nil,
        addSamples_nil, List.append_nil]
  | cons number left induction =>
      cases moments with
      | nil => cases enough
      | cons now moments =>
          let sample := (s.threads.registry.instance? number).toList.map fun i =>
            (⟨c, number, i.sample now⟩ : Filed)
          obtain ⟨more, goes, isTaken⟩ :=
            induction (s := { s with threads := s.threads.take c now .round number left taken }) samples
              (Threads.stage_goTo there _) (Nat.succ.inj enough)
          refine ⟨sample ++ more, ?_, ?_, ?_⟩
          · rw [proceeds_cons, proceed_sampling samples there rfl, Threads.proceed, goes,
              ← List.append_assoc]
            simp only [rounded, Threads.take, Threads.goTo, List.set_set]
            rfl
          · refine List.forall_mem_append.mpr ⟨List.forall_mem_map.mpr fun i found => ?_, ?_⟩
            · exact ⟨rfl, i, now, List.mem_cons_self, Option.mem_toList.mp found, rfl⟩
            · exact (isTaken.mono (List.subset_cons_self _ _)).each
          · rw [List.map_append, isTaken.numbers]
            change _ ++ left.filter (fun number => (s.threads.registry.instance? number).isSome) = _
            cases found : s.threads.registry.instance? number with
            | none => simp [sample, found]
            | some i => simp [sample, found]

theorem listing_ends {moments : List UInt64} (samples : s.stage = .sampling c last)
    (there : s.threads.stages[c]? = some .listing)
    (enough : moments.length = s.threads.registry.live.values.length + 4) :
    ∃ more, s.proceeds moments = s.rounded c last (.sampled more.length) more ∧
      Taken s.threads.registry c s.threads.registry.live.values moments more := by
  cases moments with
  | nil => cases enough
  | cons now moments =>
      obtain ⟨more, goes, isTaken⟩ := taking_ends
        (s := { s with
          threads := s.threads.goTo c (.taking .round s.threads.registry.live.values []) })
        samples (Threads.stage_goTo there _) (Nat.succ.inj enough)
      refine ⟨more, ?_, isTaken.mono (List.subset_cons_self _ _)⟩
      rw [proceeds_cons, proceed_sampling samples there rfl, Threads.proceed, goes, List.nil_append]
      simp only [rounded, Threads.goTo, List.set_set]

theorem entering_ends {moments : List UInt64} (samples : s.stage = .sampling c last)
    (there : s.threads.stages[c]? = some (.entering .round)) (free : s.threads.holder = none)
    (enough : moments.length = s.threads.registry.live.values.length + 5) :
    ∃ more, s.proceeds moments = s.rounded c last (.sampled more.length) more ∧
      Taken s.threads.registry c s.threads.registry.live.values moments more := by
  cases moments with
  | nil => cases enough
  | cons now moments =>
      obtain ⟨more, goes, isTaken⟩ := listing_ends
        (s := { s with threads := { s.threads with holder := some c }.goTo c .listing })
        samples (Threads.stage_goTo (s := { s.threads with holder := some c }) there _)
        (Nat.succ.inj enough)
      refine ⟨more, ?_, isTaken.mono (List.subset_cons_self _ _)⟩
      have entered : s.threads.proceed c now (.entering .round) =
          { s.threads with holder := some c }.goTo c .listing := by
        rw [Threads.proceed, Threads.enter, free]
        rfl
      rw [proceeds_cons, proceed_sampling samples there rfl, entered, goes]
      simp only [rounded, Threads.goTo, List.set_set]

/-- However far a round has come, it ends. -/
theorem round_ends {stage : Threads.Stage} {moments : List UInt64}
    (samples : s.stage = .sampling c last) (there : s.threads.stages[c]? = some stage)
    (isRound : stage.IsRound c) (free : stage.holds = false → s.threads.holder = none)
    (enough : moments.length = stage.stepsLeft s.threads.registry.live.values.length + 1) :
    ∃ answer more, s.proceeds moments = s.rounded c last answer more ∧ ∀ f ∈ more, f.thread = c := by
  have own {numbers : List Nat} {more : List Filed}
      (isTaken : Taken s.threads.registry c numbers moments more) : ∀ f ∈ more, f.thread = c :=
    fun f member => (isTaken.each f member).1
  cases stage with
  | entering purpose =>
      cases purpose with
      | round =>
          obtain ⟨more, goes, isTaken⟩ := entering_ends samples there (free rfl) enough
          exact ⟨_, more, goes, own isTaken⟩
      | last => exact isRound.elim
  | listing =>
      obtain ⟨more, goes, isTaken⟩ := listing_ends samples there enough
      exact ⟨_, more, goes, own isTaken⟩
  | taking purpose left taken =>
      cases purpose with
      | round =>
          obtain ⟨more, goes, isTaken⟩ := taking_ends samples there enough
          exact ⟨_, _, goes, List.forall_mem_append.mpr ⟨isRound, own isTaken⟩⟩
      | last => exact isRound.elim
  | leaving answer =>
      obtain ⟨first, second, rfl⟩ := List.length_eq_two.mp enough
      exact ⟨_, [], leaving_ends samples there first second, nofun⟩
  | done answer =>
      obtain ⟨now, rfl⟩ := List.length_eq_one_iff.mp enough
      exact ⟨_, [], sampled_ends samples there (free rfl) now, nofun⟩
  | closing | finding | looking | making => exact isRound.elim

theorem persisting_ends (persists : s.stage = .persisting last) (free : s.threads.holder = none)
    (now : UInt64) : s.proceeds [now] = s.persist last := by
  have free' : (s.sampler.directory.isSome && s.threads.holder.isSome) = false := by
    rw [free, Option.isSome_none, Bool.and_false]
  rw [proceeds_cons, proceed, persists]
  dsimp only
  rw [free', if_neg Bool.false_ne_true]
  rfl

theorem proceeds_finished {rounds : Nat} (finished : s.stage = .finished rounds)
    (moments : List UInt64) : s.proceeds moments = s := by
  induction moments with
  | nil => rfl
  | cons now moments induction =>
      rw [proceeds_cons, proceed, finished]
      exact induction

/-- A round from its beginning until the archive has been written. -/
theorem begun_round_ends {moments : List UInt64} (free : s.threads.holder = none) (last : Bool)
    (enough : moments.length = s.threads.registry.live.values.length + 6) :
    let call := s.threads.stages.length
    ∃ more, (s.beginRound last).proceeds moments =
        ((s.beginRound last).rounded call last (.sampled more.length) more).persist last ∧
      Taken s.threads.registry call s.threads.registry.live.values moments more := by
  intro call
  rcases List.eq_nil_or_concat' moments with rfl | ⟨moments, now, rfl⟩
  · cases enough
  · rw [List.length_append] at enough
    obtain ⟨more, goes, isTaken⟩ := entering_ends (s := s.beginRound last) rfl
      List.getElem?_concat_length free (Nat.succ.inj enough)
    refine ⟨more, ?_, isTaken.mono (List.subset_append_left _ _)⟩
    rw [proceeds_append, goes]
    exact persisting_ends rfl rfl now

end Sampling

end Coordination
