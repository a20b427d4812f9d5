import Coordination.Proofs.Statistics.Ledger
import Coordination.Proofs.Statistics.Threads

/-!
The last sample of an instance. From the moment it is taken out of the live instances no round can list it
any more, and a round that listed it before is through before the thread that closes it gets to the archive.
-/

namespace Coordination

namespace Threads

variable {r : Registry} {s next : Threads} {event : Event} {c thread number : Nat} {stage : Stage}
  {now : UInt64} {events : List Event} {i : Instance}

theorem run_append (s : Threads) (first second : List Event) :
    s.run (first ++ second) = (s.run first).run second := List.foldl_append

theorem run_concat (s : Threads) (events : List Event) (event : Event) :
    s.run (events ++ [event]) = (s.run events).step event := run_append s events [event]

/-! Updates of one instance. -/

theorem updatesOf_append (number : Nat) (first second : List Event) :
    updatesOf number (first ++ second) = updatesOf number first ++ updatesOf number second :=
  List.filterMap_append

theorem instance?_step_update (s : Threads) {u : Instance.Update}
    (found : s.registry.instance? number = some i) :
    (s.step (.update number u)).registry.instance? number = some (i.attempt u) := by
  rw [step, Registry.left_updateInstance, Registry.update_eq, found, Instance.attempt_eq]
  dsimp only
  cases i.perform u with
  | error fault => exact found
  | ok j => exact List.getElem?_set_self (List.getElem?_eq_some_iff.mp found).1

theorem Move.instance?_eq (move : Move s event next) (apart : event.update? number = none)
    (held : s.registry.instance? number = some i) : next.registry.instance? number = some i := by
  cases move with
  | idle | called | removed there found live | refused there | entered there free | listed there
  | took there | filed there | left there | told there asks | found there known | missed there =>
      exact held
  | updated found done =>
      refine (List.getElem?_set_ne fun same => ?_).trans held
      rw [Event.update?, if_pos same] at apart
      cases apart
  | made there absent => exact Registry.instance?_addInstance held _ _ _

theorem instance?_step (event : Event) (found : s.registry.instance? number = some i) :
    (s.step event).registry.instance? number = some (i.after (event.update? number).toList) := by
  cases update : event.update? number with
  | none => exact (move s event).instance?_eq update found
  | some u =>
      cases event with
      | update other v =>
          rw [Event.update?] at update
          split at update
          · rename_i same
            subst same
            cases update
            exact instance?_step_update s found
          · cases update
      | call request | proceed thread now => cases update

theorem instance?_run (events : List Event) (found : s.registry.instance? number = some i) :
    (s.run events).registry.instance? number = some (i.after (updatesOf number events)) := by
  induction events using List.reverseRecOn with
  | nil => exact found
  | append_singleton events event ih =>
      have last : updatesOf number [event] = (event.update? number).toList := by
        cases update : event.update? number <;> simp [updatesOf, update]
      rw [run_concat, instance?_step event ih, updatesOf_append, last]
      simp only [Instance.after, List.foldl_append]

/-! Instances that are not live. -/

/-- It has been taken out of the live instances. -/
def Gone (number : Nat) (s : Threads) : Prop :=
  number < s.registry.instances.length ∧ ∀ key, s.registry.live.get? key ≠ some number

theorem Move.gone (move : Move s event next) (gone : Gone number s) : Gone number next := by
  obtain ⟨made, absent⟩ := gone
  cases move with
  | idle | called | refused there | entered there free | listed there | took there | filed there
  | left there | told there asks | found there known | missed there => exact ⟨made, absent⟩
  | updated found done => exact ⟨by simpa [Registry.replaceInstance] using made, absent⟩
  | removed there found live =>
      refine ⟨made, fun key held => ?_⟩
      change (s.registry.live.erase _).get? key = some number at held
      rw [Table.get?_erase] at held
      split at held
      · cases held
      · exact absent key held
  | @made thread now t key scope there free =>
      refine ⟨?_, fun other held => ?_⟩
      · change number < (s.registry.instances ++ [_]).length
        rw [List.length_append]
        omega
      · change (s.registry.live.insert key _).get? other = some number at held
        rw [Table.get?_insert] at held
        split at held
        · cases held
          exact Nat.lt_irrefl _ made
        · exact absent other held

theorem gone_of_removed (orderly : Orderly r s) (found : s.registry.instance? number = some i)
    (stage : Stage) : Gone number
      ({ s with registry := { s.registry with live := s.registry.live.erase i.key } }.goTo c stage) := by
  refine ⟨(List.getElem?_eq_some_iff.mp found).1, fun key held => ?_⟩
  change (s.registry.live.erase i.key).get? key = some number at held
  rw [Table.get?_erase] at held
  split at held
  · cases held
  · rename_i differs
    obtain ⟨j, there, named⟩ := orderly.housed key number held
    cases found.symm.trans there
    exact differs named.symm

/-! The only thread that closes an instance. -/

/-- No other thread is closing it. -/
def Sole (number c : Nat) (s : Threads) : Prop :=
  ∀ (thread : Nat) (stage : Stage), s.stages[thread]? = some stage →
    stage.closes? = some number → thread = c

theorem Request.closes?_stage (request : Request) (other : request ≠ .close number) :
    request.stage.closes? ≠ some number := by
  cases request with
  | sampleAll | obtain => nofun
  | close closed => exact fun same => other (congrArg Request.close (Option.some.inj same))

theorem Move.sole (move : Move s event next) (other : event ≠ .call (.close number))
    (sole : Sole number c s) : Sole number c next := by
  unfold Sole
  cases move with
  | idle | updated found done => exact sole
  | @called request =>
      refine forall_stage_concat sole fun closes => ?_
      exact absurd closes (request.closes?_stage fun same => other (congrArg _ same))
  | removed there found live =>
      have closing := sole _ _ there
      exact forall_stage_goTo (fun other stage _ => sole other stage) closing
  | @entered thread now purpose there free =>
      refine forall_stage_goTo (fun other stage _ => sole other stage) fun closes => ?_
      cases purpose with
      | round => cases closes
      | last closed => exact sole _ _ there closes
  | @took thread closed now purpose left taken there =>
      refine forall_stage_goTo (fun other stage _ => sole other stage) fun closes => ?_
      cases purpose with
      | round => cases closes
      | last closed => exact sole _ _ there closes
  | refused there | listed there | filed there | left there | told there asks | found there known
  | missed there | made there absent =>
      exact forall_stage_goTo (fun other stage _ => sole other stage) nofun

/-! When the last sample has been filed. -/

/-- This is its last sample, and nothing under way can bring another. -/
structure Settled (number : Nat) (f : Filed) (s : Threads) : Prop where
  last : (s.filed.filter (·.number = number)).getLast? = some f
  apart : ∀ (thread : Nat) (stage : Stage), s.stages[thread]? = some stage →
    ¬ stage.Concerns number

theorem Request.not_concerns_stage (request : Request) (other : request ≠ .close number) :
    ¬ request.stage.Concerns number := by
  cases request with
  | sampleAll | obtain => exact id
  | close closed => exact fun same => other (congrArg Request.close same)

theorem Move.settled {f : Filed} (move : Move s event next) (other : event ≠ .call (.close number))
    (gone : Gone number s) (settled : Settled number f s) : Settled number f next := by
  obtain ⟨last, apart⟩ := settled
  constructor
  · cases move with
    | filed there =>
        have none : (_ : List Filed).filter (·.number = number) = [] :=
          List.filter_eq_nil_iff.mpr fun f member same =>
            apart _ _ there (.inr (.inr ⟨f, member, of_decide_eq_true same⟩))
        change ((s.filed ++ _).filter _).getLast? = _
        rw [List.filter_append, none, List.append_nil]
        exact last
    | idle | called | updated found done | removed there found live | refused there
    | entered there free | listed there | took there | left there | told there asks
    | found there known | missed there | made there absent => exact last
  · cases move with
    | idle | updated found done => exact apart
    | @called request =>
        exact forall_stage_concat apart
          (request.not_concerns_stage fun same => other (congrArg _ same))
    | removed there found live =>
        have closing := apart _ _ there
        exact forall_stage_goTo (fun other stage _ => apart other stage) closing
    | @entered thread now purpose there free =>
        refine forall_stage_goTo (fun other stage _ => apart other stage) ?_
        cases purpose with
        | round => exact id
        | last closed =>
            have differs : closed ≠ number := apart _ _ there
            rintro (same | member | ⟨f, member, -⟩)
            · exact differs (Purpose.last.inj same)
            · exact differs (List.mem_singleton.mp member).symm
            · cases member
    | listed there =>
        refine forall_stage_goTo (fun other stage _ => apart other stage) ?_
        rintro (same | member | ⟨f, member, -⟩)
        · cases same
        · obtain ⟨key, held⟩ := (Table.mem_values_iff _ _).mp member
          exact gone.2 key held
        · cases member
    | @took thread sampled now purpose left taken there =>
        refine forall_stage_goTo (fun other stage _ => apart other stage) ?_
        have before := apart _ _ there
        rintro (same | member | ⟨f, member, same⟩)
        · exact before (.inl same)
        · exact before (.inr (.inl (List.mem_cons_of_mem _ member)))
        · obtain member | member := List.mem_append.mp member
          · exact before (.inr (.inr ⟨f, member, same⟩))
          · obtain ⟨i, -, rfl⟩ := List.mem_map.mp member
            exact before (.inr (.inl (same ▸ List.mem_cons_self)))
    | refused there | filed there | left there | told there asks | found there known
    | missed there | made there absent =>
        exact forall_stage_goTo (fun other stage _ => apart other stage) id

theorem settled_of_filed {f : Filed} (orderly : Orderly r s) (sole : Sole number c s)
    (there : s.stages[c]? = some (.taking (.last number) [] [f])) (own : f.number = number) :
    Settled number f (s.file c (.last number) [f]) := by
  constructor
  · change ((s.filed ++ [f]).filter _).getLast? = _
    rw [List.filter_append, List.filter_singleton, decide_eq_true own]
    exact List.getLast?_concat
  · refine forall_stage_goTo (fun other stage differs inside concerns => ?_) id
    have elsewhere : stage.closes? ≠ some number :=
      fun closes => differs (sole other stage inside closes)
    cases stage with
    | closing closed => exact elsewhere (congrArg some concerns)
    | entering purpose =>
        cases purpose with
        | round => exact concerns
        | last closed => exact elsewhere (congrArg some concerns)
    | taking purpose left taken =>
        -- There is one thread in the archive at a time.
        have held := orderly.alone other _ inside rfl
        cases held.symm.trans (orderly.alone c _ there rfl)
        exact differs rfl
    | listing | leaving | finding | looking | making | done => exact concerns

/-! The course of a call that closes an instance. -/

/-- By one of these events the thread took the name of the instance out of the live ones. -/
def Removed (s : Threads) (c number : Nat) (events : List Event) : Prop :=
  ∃ early removal meanwhile i, events = early ++ .proceed c removal :: meanwhile ∧
    (s.run early).registry.instance? number = some i ∧
    (s.run early).registry.live.contains i.key = true ∧
    (s.run (early ++ [.proceed c removal])).registry.live.contains i.key = false

/-- Where the thread has its sample from: it took it when it had taken the instance out. -/
def Sampled (s : Threads) (c number : Nat) (events : List Event) (f : Filed) : Prop :=
  ∃ early now late i, events = early ++ .proceed c now :: late ∧ f = ⟨c, number, i.sample now⟩ ∧
    (s.run early).registry.instance? number = some i ∧
    Removed s c number early ∧ Gone number (s.run early)

theorem Removed.append (removed : Removed s c number events) (more : List Event) :
    Removed s c number (events ++ more) := by
  obtain ⟨early, removal, meanwhile, i, rfl, found, before, after⟩ := removed
  exact ⟨early, removal, meanwhile ++ more, i, by simp, found, before, after⟩

theorem Sampled.append {f : Filed} (sampled : Sampled s c number events f) (more : List Event) :
    Sampled s c number (events ++ more) f := by
  obtain ⟨early, now, late, i, rfl, taken⟩ := sampled
  exact ⟨early, now, late ++ more, i, by simp, taken⟩

/-- How far the thread is, `events` after `first` and now at `s`. -/
def Progress (first : Threads) (c number : Nat) (events : List Event) (s : Threads) : Stage → Prop
  | .closing closed => closed = number
  | .entering purpose => purpose = .last number ∧ Removed first c number events ∧ Gone number s
  | .taking purpose left taken =>
      purpose = .last number ∧ Removed first c number events ∧ Gone number s ∧
        (left = [number] ∧ taken = [] ∨
          ∃ f, left = [] ∧ taken = [f] ∧ Sampled first c number events f)
  | .leaving answer | .done answer =>
      answer = .closed true →
        ∃ f, Sampled first c number events f ∧ Gone number s ∧ Settled number f s
  | _ => False

section

variable {first : Threads} (move : Move s event next) (other : event ≠ .call (.close number))

include move other

theorem Progress.keep (progress : Progress first c number events s stage) :
    Progress first c number (events ++ [event]) next stage := by
  cases stage with
  | closing closed => exact progress
  | entering purpose =>
      obtain ⟨same, removed, gone⟩ := progress
      exact ⟨same, removed.append _, move.gone gone⟩
  | taking purpose left taken =>
      obtain ⟨same, removed, gone, hand⟩ := progress
      refine ⟨same, removed.append _, move.gone gone, hand.imp_right ?_⟩
      rintro ⟨f, none, one, sampled⟩
      exact ⟨f, none, one, sampled.append _⟩
  | leaving answer | done answer =>
      intro closed
      obtain ⟨f, sampled, gone, settled⟩ := progress closed
      exact ⟨f, sampled.append _, move.gone gone, move.settled other gone settled⟩
  | listing | finding | looking | making => exact progress

omit other in
theorem Move.stage_of_elsewhere (there : s.stages[c]? = some stage)
    (elsewhere : ∀ now, event ≠ .proceed c now) : next.stages[c]? = some stage := by
  have apart {thread : Nat} {now : UInt64} (same : event = .proceed thread now) (new : Stage) :
      (s.stages.set thread new)[c]? = some stage := by
    refine (List.getElem?_set_ne fun own => elsewhere now ?_).trans there
    rw [same, own]
  cases move with
  | idle | updated found done => exact there
  | called => exact (List.getElem?_append_left (List.getElem?_eq_some_iff.mp there).1).trans there
  | removed there found live | refused there | entered there free | listed there | took there
  | filed there | left there | told there asks | found there known | missed there
  | made there absent => exact apart rfl _

end

theorem Progress.proceed {first : Threads} (orderly : Orderly r s) (sole : Sole number c s)
    (here : first.run events = s) (move : Move s (.proceed c now) next)
    (goes : first.run (events ++ [.proceed c now]) = next) (there : s.stages[c]? = some stage)
    (progress : Progress first c number events s stage) :
    ∃ stage, next.stages[c]? = some stage ∧
      Progress first c number (events ++ [.proceed c now]) next stage := by
  have gone (gone : Gone number s) : Gone number next := move.gone gone
  have kept := progress.keep move (by rintro ⟨⟩)
  cases move with
  | idle => exact ⟨stage, there, kept⟩
  | removed closing found live =>
      cases there.symm.trans closing
      cases progress
      refine ⟨_, stage_goTo closing _, rfl, ?_, gone_of_removed orderly found _⟩
      refine ⟨events, now, [], _, rfl, here ▸ found, ?_, ?_⟩
      · rw [here, Table.contains, live]
        rfl
      · rw [goes]
        change (s.registry.live.erase _).contains _ = false
        rw [Table.contains, Table.get?_erase, if_pos rfl]
        rfl
  | refused closing => exact ⟨_, stage_goTo closing _, by rintro ⟨⟩⟩
  | entered enters free =>
      cases there.symm.trans enters
      obtain ⟨rfl, removed, absent⟩ := kept
      exact ⟨_, stage_goTo enters _, rfl, removed, absent, .inl ⟨rfl, rfl⟩⟩
  | took takes =>
      cases there.symm.trans takes
      obtain ⟨rfl, removed, absent, hand⟩ := kept
      obtain ⟨only, rfl⟩ | ⟨f, none, -⟩ := hand
      · cases only
        obtain ⟨i, found⟩ : ∃ i, s.registry.instance? number = some i :=
          ⟨_, List.getElem?_eq_getElem absent.1⟩
        have earlier := progress.2.1
        refine ⟨_, stage_goTo takes _, rfl, removed, absent,
          .inr ⟨⟨c, number, i.sample now⟩, rfl, ?_, ?_⟩⟩
        · rw [found]
          rfl
        · exact ⟨events, now, [], i, rfl, rfl, here ▸ found, earlier, here ▸ progress.2.2.1⟩
      · cases none
  | filed takes =>
      cases there.symm.trans takes
      obtain ⟨rfl, removed, absent, hand⟩ := kept
      obtain ⟨only, -⟩ | ⟨f, -, rfl, sampled⟩ := hand
      · cases only
      · refine ⟨_, stage_goTo takes _, fun _ => ⟨f, sampled, absent, ?_⟩⟩
        obtain ⟨early, taken, late, i, -, rfl, -⟩ := sampled
        exact settled_of_filed orderly sole takes rfl
  | left leaves =>
      cases there.symm.trans leaves
      exact ⟨_, stage_goTo leaves _, kept⟩
  | told obtaining asks =>
      exact ⟨_, stage_goTo obtaining _, by rintro ⟨⟩⟩
  | listed lists =>
      cases there.symm.trans lists
      exact progress.elim
  | found finds known =>
      cases there.symm.trans finds
      exact progress.elim
  | missed looks =>
      cases there.symm.trans looks
      exact progress.elim
  | made makes absent =>
      cases there.symm.trans makes
      exact progress.elim

/-- Some events after an instance is being closed by one thread alone. -/
structure Course (r : Registry) (first : Threads) (c number : Nat) (events : List Event) : Prop where
  orderly : Orderly r (first.run events)
  sole : Sole number c (first.run events)
  progress : ∃ stage, (first.run events).stages[c]? = some stage ∧
    Progress first c number events (first.run events) stage

theorem Course.concat {first : Threads} (course : Course r first c number events)
    (other : event ≠ .call (.close number)) : Course r first c number (events ++ [event]) := by
  obtain ⟨orderly, sole, stage, there, progress⟩ := course
  have next := move (first.run events) event
  rw [← run_concat] at next
  refine ⟨next.orderly orderly, next.sole other sole, ?_⟩
  by_cases own : ∃ now, event = .proceed c now
  · obtain ⟨now, rfl⟩ := own
    exact progress.proceed orderly sole rfl next rfl there
  · refine ⟨stage, next.stage_of_elsewhere there fun now same => own ⟨now, same⟩, ?_⟩
    exact progress.keep next other

theorem Course.of_events {first : Threads} (course : Course r first c number []) (events : List Event)
    (once : .call (.close number) ∉ events) : Course r first c number events := by
  induction events using List.reverseRecOn with
  | nil => exact course
  | append_singleton events event ih =>
      rw [List.mem_append, List.mem_singleton, not_or] at once
      exact (ih once.1).concat (Ne.symm once.2)

/-! From the start. -/

theorem orderly_start (sound : Registry.Sound r) : Orderly r (start r) where
  types name t known := ((sound.types name t).mp known).2
  housed := sound.housed
  alone _ _ there := nomatch there
  stages _ _ there := nomatch there
  filed _ member := nomatch member
  archive := (List.append_nil _).symm

theorem orderly_run (sound : Registry.Sound r) (events : List Event) :
    Orderly r ((start r).run events) := by
  induction events using List.reverseRecOn with
  | nil => exact orderly_start sound
  | append_singleton events event ih =>
      rw [run_concat]
      exact (move _ event).orderly ih

theorem sole_run (c : Nat) (events : List Event) (never : .call (.close number) ∉ events) :
    Sole number c ((start r).run events) := by
  induction events using List.reverseRecOn with
  | nil => exact fun _ _ there => nomatch there
  | append_singleton events event ih =>
      rw [List.mem_append, List.mem_singleton, not_or] at never
      rw [run_concat]
      exact (move _ event).sole (Ne.symm never.2) (ih never.1)

/-- The thread has been told that it closed its instance. -/
def HasClosed (s : Threads) (thread : Nat) : Prop :=
  s.stages[thread]? = some (.done (.closed true))

def Stage.hasClosed : Stage → Bool
  | .done (.closed removed) => removed
  | _ => false

theorem hasClosed_iff (s : Threads) (thread : Nat) :
    s.stages[thread]?.any Stage.hasClosed = true ↔ s.HasClosed thread := by
  rw [HasClosed]
  cases s.stages[thread]? with
  | none => exact ⟨nofun, nofun⟩
  | some stage =>
      cases stage with
      | done answer => cases answer <;> simp [Stage.hasClosed]
      | closing | entering | listing | taking | leaving | finding | looking | making =>
          exact ⟨nofun, nofun⟩

instance (s : Threads) (thread : Nat) : Decidable (s.HasClosed thread) :=
  decidable_of_iff _ (hasClosed_iff s thread)

/-- The threads when one of them has called to close an instance. -/
def called (r : Registry) (before : List Event) (number : Nat) : Threads :=
  (start r).run (before ++ [.call (.close number)])

theorem course_called (sound : Registry.Sound r) (before : List Event)
    (never : .call (.close number) ∉ before) :
    Course r (called r before number) ((start r).run before).stages.length number [] := by
  have calls : Move ((start r).run before) (.call (.close number)) (called r before number) := by
    rw [called, run_concat]
    exact move ..
  refine ⟨calls.orderly (orderly_run sound before), ?_, ?_⟩
  · rw [called, run_concat]
    exact forall_stage_concat (sole_run _ before never) fun _ => rfl
  · refine ⟨.closing number, ?_, rfl⟩
    rw [called, run_concat]
    exact List.getElem?_concat_length

/-- What thread `c` did by its step between `early` and `late` to close an instance: it took the last
sample of it that there is. -/
structure LastTaken (r : Registry) (before : List Event) (c number : Nat) (early : List Event)
    (now : UInt64) (late : List Event) (i : Instance) : Prop where
  found : ((called r before number).run early).registry.instance? number = some i
  removed : Removed (called r before number) c number early
  gone : Gone number ((called r before number).run early)
  /-- It shows every update since any moment before the call. -/
  updates : ∀ earlier later j, before = earlier ++ later →
    ((start r).run earlier).registry.instance? number = some j →
    i = j.after (updatesOf number (later ++ early))
  last :
    (((called r before number).run (early ++ .proceed c now :: late)).filed.filter
      (·.number = number)).getLast? = some ⟨c, number, i.sample now⟩

/-- However the calls overlap: when a thread has been told that it closed an instance, the last sample of
the instance in the archive is the one that this thread took after the instance had been taken out. -/
theorem last_sample_stands (processId : UInt32) (host : String) (history : List Registry.Event)
    (before after : List Event) (number : Nat) (once : .call (.close number) ∉ before ++ after) :
    let r := (Registry.empty processId host).after history
    let c := ((start r).run before).stages.length
    let s := (start r).run (before ++ .call (.close number) :: after)
    (s.registry.archive.samples = r.archive.samples ++ s.filed.map Filed.sample ∧
      ∀ f ∈ s.filed, f.OfInstance s.registry) ∧
    (s.HasClosed c →
      ∃ early now late i, after = early ++ .proceed c now :: late ∧
        LastTaken r before c number early now late i) := by
  intro r c s
  have sound : Registry.Sound r := ((Registry.sound_empty processId host).after history).1
  rw [List.mem_append, not_or] at once
  have course := (course_called sound before once.1).of_events after once.2
  have whole : s = (called r before number).run after := by
    rw [called, ← run_append, List.append_assoc]
    rfl
  rw [whole]
  refine ⟨⟨course.orderly.archive, course.orderly.filed⟩, fun answered => ?_⟩
  obtain ⟨stage, there, progress⟩ := course.progress
  cases there.symm.trans answered
  obtain ⟨f, ⟨early, now, late, i, rfl, rfl, found, removed, gone⟩, -, settled⟩ := progress rfl
  refine ⟨early, now, late, i, rfl, found, removed, gone, ?_, settled.last⟩
  intro earlier later j split there
  have later := instance?_run (later ++ .call (.close number) :: early) there
  rw [← run_append, ← List.append_assoc, ← split, List.append_cons, run_append] at later
  have same := Option.some.inj (found.symm.trans later)
  rw [same, updatesOf_append, updatesOf_append]
  rfl

/-- The instance is closed while a round has listed it, updated on the way, and made anew before its last
sample is taken. -/
theorem last_sample_stands_beside_round :
    let t : StatisticsType := ⟨"Cache", [⟨"puts", "operations", true, .longCounter⟩]⟩
    let history : List Registry.Event := [.register t, .obtain "Cache" (.thread 1) none none]
    let before : List Event :=
      [.update 0 (.incrementBy "puts" 5), .call .sampleAll, .proceed 0 1, .proceed 0 2]
    let after : List Event :=
      [.proceed 1 3, .proceed 1 4, .update 0 (.increment "puts"), .proceed 0 5, .proceed 0 6,
        .update 0 (.increment "puts"), .proceed 0 7, .proceed 1 8,
        .call (.obtain "Cache" (.thread 1) none none), .proceed 2 9, .proceed 2 9, .proceed 2 9,
        .proceed 1 10, .proceed 1 11, .proceed 1 12]
    let r := (Registry.empty 1 "node").after history
    let s := (start r).run (before ++ .call (.close 0) :: after)
    s.registry.live.values = [1] ∧
      s.registry.archive.samples =
        [⟨"Cache", "thread_1", 5, [.ofNat 6]⟩, ⟨"Cache", "thread_1", 10, [.ofNat 7]⟩] ∧
      ∃ early now late i, after = early ++ .proceed 1 now :: late ∧
        LastTaken r before 1 0 early now late i := by
  intro t history before after r s
  refine ⟨by decide +kernel, by decide +kernel, ?_⟩
  exact (last_sample_stands 1 "node" history before after 0 (by decide)).2
    (by decide +kernel)

end Threads

end Coordination
