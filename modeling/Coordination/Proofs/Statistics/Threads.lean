import Coordination.Proofs.Statistics.Registry
import Coordination.Statistics.Threads

/-!
What every step of the threads keeps. Nobody but the thread in the archive takes samples, each of which is
one of the instance that it is noted down for, and an instance that has been taken out never comes back.
-/

namespace Coordination

namespace Registry

/-- Live instances are there, and found under their names. -/
def Housed (r : Registry) : Prop :=
  ∀ key number, r.live.get? key = some number → ∃ i, r.instance? number = some i ∧ i.key = key

theorem Sound.housed {r : Registry} (sound : Sound r) : Housed r := by
  intro key number held
  obtain ⟨title, there, -⟩ := sound.live key number held
  rw [getElem?_titles] at there
  obtain ⟨i, found, -⟩ := Option.map_eq_some_iff.mp there
  exact ⟨i, found, sound.key_eq held found⟩

theorem instance?_addInstance {r : Registry} {number : Nat} {i : Instance}
    (found : r.instance? number = some i) (t : StatisticsType) (key : InstanceKey) (scope : Scope) :
    (Threads.addInstance r t key scope).instance? number = some i := by
  obtain ⟨inside, -⟩ := List.getElem?_eq_some_iff.mp found
  exact (List.getElem?_append_left inside).trans found

theorem titles_addInstance (r : Registry) (t : StatisticsType) (key : InstanceKey) (scope : Scope) :
    (Threads.addInstance r t key scope).titles = r.titles ++ [⟨t, key.name⟩] := List.map_append

end Registry

namespace Threads

open Registry (Housed)

variable {r : Registry} {s next : Threads} {thread number : Nat} {stage : Stage} {now : UInt64}

/-! What a thread is at. -/

/-- The thread is in the archive. -/
def Stage.holds : Stage → Bool
  | .listing | .taking .. | .leaving _ => true
  | _ => false

/-- The instance that the thread is still to take a last sample of. -/
def Stage.closes? : Stage → Option Nat
  | .closing number | .entering (.last number) | .taking (.last number) .. => some number
  | _ => none

def Stage.obtains : Stage → Bool
  | .finding .. | .looking .. | .making .. | .done (.obtained _) => true
  | _ => false

/-- A sample of the instance may come of it. -/
def Stage.Concerns (number : Nat) : Stage → Prop
  | .closing other | .entering (.last other) => other = number
  | .taking purpose left taken =>
      purpose = .last number ∨ number ∈ left ∨ ∃ f ∈ taken, f.number = number
  | _ => False

theorem forall_stage_goTo {P : Nat → Stage → Prop}
    (others : ∀ other found, other ≠ thread → s.stages[other]? = some found → P other found)
    (new : P thread stage) (other : Nat) (found : Stage)
    (there : (s.goTo thread stage).stages[other]? = some found) : P other found := by
  rw [goTo, List.getElem?_set] at there
  split at there
  · rename_i same
    split at there
    · cases there
      exact same ▸ new
    · cases there
  · rename_i differs
    exact others other found (Ne.symm differs) there

theorem forall_stage_concat {P : Nat → Stage → Prop}
    (others : ∀ other found, s.stages[other]? = some found → P other found)
    (new : P s.stages.length stage) (other : Nat) (found : Stage)
    (there : (s.stages ++ [stage])[other]? = some found) : P other found := by
  rcases Nat.lt_trichotomy other s.stages.length with below | rfl | above
  · rw [List.getElem?_append_left below] at there
    exact others other found there
  · rw [List.getElem?_concat_length] at there
    cases there
    exact new
  · rw [List.getElem?_eq_none (by rw [List.length_append, List.length_singleton]; omega)] at there
    cases there

theorem stage_goTo (there : s.stages[thread]? = some stage) (new : Stage) :
    (s.goTo thread new).stages[thread]? = some new :=
  List.getElem?_set_self (List.getElem?_eq_some_iff.mp there).1

/-! What one event does. -/

inductive Move (s : Threads) : Event → Threads → Prop
  | idle {event : Event} : Move s event s
  | called {request : Request} :
      Move s (.call request) { s with stages := s.stages ++ [request.stage] }
  | updated {number : Nat} {u : Instance.Update} {i j : Instance}
      (found : s.registry.instance? number = some i) (done : i.perform u = .ok j) :
      Move s (.update number u) { s with registry := s.registry.replaceInstance number j }
  | removed {thread number holder : Nat} {now : UInt64} {i : Instance}
      (there : s.stages[thread]? = some (.closing number))
      (found : s.registry.instance? number = some i)
      (live : s.registry.live.get? i.key = some holder) :
      Move s (.proceed thread now)
        ({ s with registry := { s.registry with live := s.registry.live.erase i.key } }.goTo thread
          (.entering (.last number)))
  | refused {thread number : Nat} {now : UInt64}
      (there : s.stages[thread]? = some (.closing number)) :
      Move s (.proceed thread now) (s.goTo thread (.done (.closed false)))
  | entered {thread : Nat} {now : UInt64} {purpose : Purpose}
      (there : s.stages[thread]? = some (.entering purpose)) (free : s.holder = none) :
      Move s (.proceed thread now) ({ s with holder := some thread }.goTo thread purpose.stage)
  | listed {thread : Nat} {now : UInt64} (there : s.stages[thread]? = some .listing) :
      Move s (.proceed thread now) (s.goTo thread (.taking .round s.registry.live.values []))
  | took {thread number : Nat} {now : UInt64} {purpose : Purpose} {left : List Nat}
      {taken : List Filed}
      (there : s.stages[thread]? = some (.taking purpose (number :: left) taken)) :
      Move s (.proceed thread now) (s.take thread now purpose number left taken)
  | filed {thread : Nat} {now : UInt64} {purpose : Purpose} {taken : List Filed}
      (there : s.stages[thread]? = some (.taking purpose [] taken)) :
      Move s (.proceed thread now) (s.file thread purpose taken)
  | left {thread : Nat} {now : UInt64} {answer : Answer}
      (there : s.stages[thread]? = some (.leaving answer)) :
      Move s (.proceed thread now) (s.leave thread answer)
  | told {thread : Nat} {now : UInt64} {stage : Stage} {result : Except Fault Nat}
      (there : s.stages[thread]? = some stage) (asks : stage.obtains = true) :
      Move s (.proceed thread now) (s.goTo thread (.done (.obtained result)))
  | found {thread : Nat} {now : UInt64} {typeName instanceName : String} {scope : Scope}
      {name trim : Option String} {t : StatisticsType}
      (there : s.stages[thread]? = some (.finding typeName scope name trim))
      (known : s.registry.types.get? typeName = some t) :
      Move s (.proceed thread now) (s.goTo thread (.looking t ⟨typeName, instanceName⟩ scope))
  | missed {thread : Nat} {now : UInt64} {t : StatisticsType} {key : InstanceKey} {scope : Scope}
      (there : s.stages[thread]? = some (.looking t key scope)) :
      Move s (.proceed thread now) (s.goTo thread (.making t key scope))
  | made {thread : Nat} {now : UInt64} {t : StatisticsType} {key : InstanceKey} {scope : Scope}
      (there : s.stages[thread]? = some (.making t key scope))
      (absent : s.registry.live.get? key = none) :
      Move s (.proceed thread now)
        ({ s with registry := addInstance s.registry t key scope }.goTo thread
          (.done (.obtained (.ok s.registry.instances.length))))

theorem remove_of_live {i : Instance} {holder : Nat} (found : s.registry.instance? number = some i)
    (live : s.registry.live.get? i.key = some holder) :
    s.remove thread number =
      { s with registry := { s.registry with live := s.registry.live.erase i.key } }.goTo thread
        (.entering (.last number)) := by
  simp [remove, found, Registry.deregister, Table.contains, live]

theorem remove_of_not_live
    (absent : ∀ i, s.registry.instance? number = some i → s.registry.live.get? i.key = none) :
    s.remove thread number = s.goTo thread (.done (.closed false)) := by
  cases found : s.registry.instance? number with
  | none => simp only [remove, found]
  | some i =>
      have gone := absent i found
      simp [remove, found, Registry.deregister, Table.contains, gone, Table.erase_of_get? gone]

theorem step_proceed (there : s.stages[thread]? = some stage) (now : UInt64) :
    s.step (.proceed thread now) = s.proceed thread now stage := by
  simp only [step, there]

theorem move (s : Threads) (event : Event) : Move s event (s.step event) := by
  cases event with
  | call request => exact .called
  | update number u =>
      rw [step, Registry.left_updateInstance, Registry.update_eq]
      cases found : s.registry.instance? number with
      | none => exact .idle
      | some i =>
          dsimp only
          cases done : i.perform u with
          | error fault => exact .idle
          | ok j => exact .updated found done
  | proceed thread now =>
      cases there : s.stages[thread]? with
      | none =>
          simp only [step, there]
          exact .idle
      | some stage =>
          rw [step_proceed there]
          cases stage with
          | closing number =>
              rw [proceed]
              by_cases live : ∃ i holder, s.registry.instance? number = some i ∧
                  s.registry.live.get? i.key = some holder
              · obtain ⟨i, holder, found, held⟩ := live
                rw [remove_of_live found held]
                exact .removed there found held
              · rw [remove_of_not_live]
                · exact .refused there
                · intro i found
                  rw [Option.eq_none_iff_forall_ne_some]
                  exact fun holder held => live ⟨i, holder, found, held⟩
          | entering purpose =>
              rw [proceed, enter]
              cases free : s.holder with
              | none => exact .entered there free
              | some other => exact .idle
          | listing => exact .listed there
          | taking purpose left taken =>
              cases left with
              | nil => exact .filed there
              | cons number left => exact .took there
          | leaving answer => exact .left there
          | finding typeName scope name trim =>
              rw [proceed, find, Registry.type]
              cases known : s.registry.types.get? typeName with
              | none => exact .told there rfl
              | some t => exact .found there known
          | looking t key scope =>
              rw [proceed, look]
              cases s.registry.live.get? key with
              | some number => exact .told there rfl
              | none => exact .missed there
          | making t key scope =>
              rw [proceed, make]
              cases absent : s.registry.live.get? key with
              | some number => exact .told there rfl
              | none => exact .made there absent
          | done answer => exact .idle

/-! What is always so. -/

/-- The sample is one of the instance that it is noted down for. -/
def Filed.OfInstance (r : Registry) (f : Filed) : Prop :=
  ∃ title, r.titles[f.number]? = some title ∧ f.sample.Fits title

/-- What a thread has in hand is what it should have. -/
def Stage.InOrder (r : Registry) : Stage → Prop
  | .taking purpose left taken =>
      (∀ f ∈ taken, f.OfInstance r) ∧
        ∀ number, purpose = .last number → (∀ n ∈ left, n = number) ∧ ∀ f ∈ taken, f.number = number
  | .looking t key _ | .making t key _ => t.name = key.typeName
  | _ => True

/-- The threads after some events from a registry on. -/
structure Orderly (r : Registry) (s : Threads) : Prop where
  types : ∀ name t, s.registry.types.get? name = some t → t.name = name
  housed : Housed s.registry
  alone : ∀ (thread : Nat) (stage : Stage), s.stages[thread]? = some stage → stage.holds = true →
    s.holder = some thread
  stages : ∀ (thread : Nat) (stage : Stage), s.stages[thread]? = some stage →
    stage.InOrder s.registry
  filed : ∀ f ∈ s.filed, f.OfInstance s.registry
  archive : s.registry.archive.samples = r.archive.samples ++ s.filed.map Filed.sample

theorem Filed.OfInstance.mono {f : Filed} (ofInstance : f.OfInstance r) {after : Registry}
    (grown : r.titles <+: after.titles) : f.OfInstance after := by
  obtain ⟨title, there, fits⟩ := ofInstance
  obtain ⟨more, same⟩ := grown
  have inside := (List.getElem?_eq_some_iff.mp there).1
  exact ⟨title, by rw [← same, List.getElem?_append_left inside, there], fits⟩

theorem Stage.InOrder.mono (inOrder : stage.InOrder r) {after : Registry}
    (grown : r.titles <+: after.titles) : stage.InOrder after := by
  cases stage with
  | taking purpose left taken => exact ⟨fun f member => (inOrder.1 f member).mono grown, inOrder.2⟩
  | looking t key scope | making t key scope => exact inOrder
  | closing | entering | listing | leaving | finding | done => trivial

section

variable {event : Event}

theorem Move.titles (move : Move s event next) : s.registry.titles <+: next.registry.titles := by
  cases move with
  | idle | called | removed there found live | refused there | entered there free | listed there
  | took there | filed there | left there | told there asks | found there known | missed there =>
      exact List.prefix_rfl
  | updated found done =>
      change s.registry.titles <+: (s.registry.replaceInstance _ _).titles
      rw [Registry.titles_replaceInstance found (Instance.title_of_perform done)]
  | made there absent => exact ⟨_, (Registry.titles_addInstance ..).symm⟩

theorem Move.housed (move : Move s event next) (orderly : Orderly r s) : Housed next.registry := by
  have housed := orderly.housed
  cases move with
  | idle | called | refused there | entered there free | listed there | took there | filed there
  | left there | told there asks | found there known | missed there => exact housed
  | @updated changed u before after found done =>
      intro key number held
      obtain ⟨i, there, named⟩ := housed key number held
      by_cases same : changed = number
      · subst same
        cases found.symm.trans there
        have inside := (List.getElem?_eq_some_iff.mp found).1
        have title := Instance.title_of_perform done
        exact ⟨after, List.getElem?_set_self inside, (congrArg Title.key title).trans named⟩
      · exact ⟨i, (List.getElem?_set_ne same).trans there, named⟩
  | removed there found live =>
      intro key number held
      change (s.registry.live.erase _).get? key = some number at held
      rw [Table.get?_erase] at held
      split at held
      · cases held
      · exact housed key number held
  | @made thread now t key scope there absent =>
      intro other number held
      change (s.registry.live.insert key _).get? other = some number at held
      rw [Table.get?_insert] at held
      split at held
      · rename_i same
        cases held
        have named : t.name = key.typeName := orderly.stages _ _ there
        refine ⟨_, List.getElem?_concat_length, ?_⟩
        rw [same, Instance.key, Instance.fresh, named]
      · obtain ⟨i, found, named⟩ := housed other number held
        exact ⟨i, Registry.instance?_addInstance found t key scope, named⟩

theorem Move.alone (move : Move s event next) (orderly : Orderly r s) (thread : Nat) (stage : Stage)
    (there : next.stages[thread]? = some stage) (holds : stage.holds = true) :
    next.holder = some thread := by
  have alone := orderly.alone
  revert holds
  revert there
  revert stage
  revert thread
  cases move with
  | idle | updated found done => exact alone
  | @called request =>
      refine forall_stage_concat alone fun holds => ?_
      cases request <;> cases holds
  | removed there found live | refused there | told there asks | found there known | missed there
  | made there absent => exact forall_stage_goTo (fun other stage _ => alone other stage) nofun
  | entered there free =>
      refine forall_stage_goTo (fun other stage _ inside holds => ?_) fun _ => rfl
      cases free.symm.trans (alone other stage inside holds)
  | listed there | took there | filed there =>
      exact forall_stage_goTo (fun other stage _ => alone other stage) fun _ => alone _ _ there rfl
  | left there =>
      refine forall_stage_goTo (fun other stage differs inside holds => ?_) nofun
      cases (alone _ _ there rfl).symm.trans (alone other stage inside holds)
      exact absurd rfl differs

theorem Move.inOrder (move : Move s event next) (orderly : Orderly r s) (thread : Nat) (stage : Stage)
    (there : next.stages[thread]? = some stage) : stage.InOrder next.registry := by
  have grown := move.titles
  have old (other : Nat) (stage : Stage) (inside : s.stages[other]? = some stage) :
      stage.InOrder next.registry := (orderly.stages other stage inside).mono grown
  revert there
  revert stage
  revert thread
  cases move with
  | idle | updated found done => exact old
  | @called request =>
      refine forall_stage_concat old ?_
      cases request <;> trivial
  | removed there found live | refused there | filed there | left there | told there asks
  | made there absent => exact forall_stage_goTo (fun other stage _ => old other stage) trivial
  | @entered thread now purpose there free =>
      refine forall_stage_goTo (fun other stage _ => old other stage) ?_
      cases purpose with
      | round => trivial
      | last number =>
          refine ⟨nofun, fun other same => ?_⟩
          cases same
          exact ⟨fun n member => List.mem_singleton.mp member, nofun⟩
  | listed there =>
      exact forall_stage_goTo (fun other stage _ => old other stage) ⟨nofun, nofun⟩
  | @took thread number now purpose left taken there =>
      refine forall_stage_goTo (fun other stage _ => old other stage) ?_
      obtain ⟨ofInstance, last⟩ := orderly.stages _ _ there
      refine ⟨?_, fun closed same => ?_⟩
      · refine List.forall_mem_append.mpr ⟨ofInstance, List.forall_mem_map.mpr fun i found => ?_⟩
        exact ⟨i.title, Registry.titled (Option.mem_toList.mp found), i.fits_sample now⟩
      · obtain ⟨only, earlier⟩ := last closed same
        obtain ⟨first, others⟩ := List.forall_mem_cons.mp only
        exact ⟨others, List.forall_mem_append.mpr
          ⟨earlier, List.forall_mem_map.mpr fun i _ => first⟩⟩
  | @found thread now typeName instanceName scope name trim t there known =>
      exact forall_stage_goTo (fun other stage _ => old other stage) (orderly.types typeName t known)
  | @missed thread now t key scope there =>
      have named : t.name = key.typeName := orderly.stages _ _ there
      exact forall_stage_goTo (fun other stage _ => old other stage) named

theorem Move.orderly (move : Move s event next) (orderly : Orderly r s) : Orderly r next := by
  refine ⟨?_, move.housed orderly, move.alone orderly, move.inOrder orderly, ?_, ?_⟩
  · cases move <;> exact orderly.types
  · have grown := move.titles
    have old (f : Filed) (member : f ∈ s.filed) : f.OfInstance next.registry :=
      (orderly.filed f member).mono grown
    cases move with
    | filed there =>
        exact List.forall_mem_append.mpr ⟨old, (orderly.stages _ _ there).1⟩
    | idle | called | updated found done | removed there found live | refused there
    | entered there free | listed there | took there | left there | told there asks
    | found there known | missed there | made there absent => exact old
  · cases move with
    | filed there =>
        change s.registry.archive.samples ++ _ = _
        rw [orderly.archive, List.append_assoc, ← List.map_append]
        rfl
    | idle | called | updated found done | removed there found live | refused there
    | entered there free | listed there | took there | left there | told there asks
    | found there known | missed there | made there absent => exact orderly.archive

end

/-! Calls that nobody disturbs. -/

section

variable (r : Registry) (holder : Option Nat) (stages : List Stage) (filed : List Filed)

theorem goTo_last (old new : Stage) :
    (⟨r, holder, stages ++ [old], filed⟩ : Threads).goTo stages.length new =
      ⟨r, holder, stages ++ [new], filed⟩ := by
  rw [goTo, List.set_append_right stages.length new (Nat.le_refl _), Nat.sub_self]
  rfl

theorem step_last (stage : Stage) (now : UInt64) :
    (⟨r, holder, stages ++ [stage], filed⟩ : Threads).step (.proceed stages.length now) =
      (⟨r, holder, stages ++ [stage], filed⟩ : Threads).proceed stages.length now stage :=
  step_proceed List.getElem?_concat_length now

theorem close_alone (number : Nat) (first second now fourth fifth : UInt64) :
    ∃ more, (⟨r, none, stages, filed⟩ : Threads).run
        (.call (.close number) ::
          [first, second, now, fourth, fifth].map (.proceed stages.length)) =
      ⟨(r.close number now).2, none,
        stages ++ [.done (.closed (r.close number now).1)], filed ++ more⟩ := by
  simp only [run, List.map_cons, List.map_nil, List.foldl_cons, List.foldl_nil]
  rw [step, Request.stage, step_last, proceed]
  by_cases live : ∃ i holder, r.instance? number = some i ∧ r.live.get? i.key = some holder
  · obtain ⟨i, holder, found, held⟩ := live
    refine ⟨[⟨stages.length, number, i.sample now⟩], ?_⟩
    rw [remove_of_live found held, Registry.close_of_live now found held]
    simp only [goTo_last, step_last, proceed, enter, Purpose.stage, take, file, leave]
    have still : ({ r with live := r.live.erase i.key } : Registry).instance? number = some i := found
    rw [still]
    rfl
  · have absent (i : Instance) (found : r.instance? number = some i) : r.live.get? i.key = none := by
      rw [Option.eq_none_iff_forall_ne_some]
      exact fun holder held => live ⟨i, holder, found, held⟩
    rw [remove_of_not_live absent, Registry.close_of_not_live now absent]
    refine ⟨[], ?_⟩
    simp only [goTo_last, step_last, proceed, List.append_nil]

theorem take_each (numbers : List Nat) (taken : List Filed) (moment : Nat → UInt64)
    (there : ∀ number ∈ numbers, ∃ i, r.instance? number = some i) :
    ∃ more : List Filed,
      (⟨r, holder, stages ++ [.taking .round numbers taken], filed⟩ : Threads).run
          ((List.range numbers.length).map fun place => .proceed stages.length (moment place)) =
        ⟨r, holder, stages ++ [.taking .round [] (taken ++ more)], filed⟩ ∧
      more.length = numbers.length ∧ more.map Filed.sample =
        (numbers.filterMap r.instance?).mapIdx fun place i => i.sample (moment place) := by
  induction numbers generalizing taken moment with
  | nil => exact ⟨[], by simp [run], rfl, rfl⟩
  | cons number numbers ih =>
      obtain ⟨⟨i, found⟩, others⟩ := List.forall_mem_cons.mp there
      obtain ⟨more, goes, count, samples⟩ :=
        ih (taken ++ [⟨stages.length, number, i.sample (moment 0)⟩])
          (fun place => moment (place + 1)) others
      refine ⟨⟨stages.length, number, i.sample (moment 0)⟩ :: more, ?_, congrArg (· + 1) count, ?_⟩
      · rw [List.length_cons, List.range_succ_eq_map, List.map_cons, List.map_map, run, List.foldl_cons,
          step_last, proceed, take, goTo_last]
        simp only [found, Option.toList_some, List.map_cons, List.map_nil]
        rw [List.append_assoc] at goes
        exact goes
      · rw [List.map_cons, samples, List.filterMap_cons_some found, List.mapIdx_cons]

theorem sampleAll_alone (housed : r.Housed) (first second next last : UInt64) (moment : Nat → UInt64) :
    ∃ more, (⟨r, none, stages, filed⟩ : Threads).run
        (.call .sampleAll :: .proceed stages.length first :: .proceed stages.length second ::
          ((List.range r.live.values.length).map (fun place => .proceed stages.length (moment place)) ++
            [next, last].map (.proceed stages.length))) =
      ⟨r.sampleEach moment, none, stages ++ [.done (.sampled r.live.values.length)], filed ++ more⟩ := by
  have there (number : Nat) (member : number ∈ r.live.values) : ∃ i, r.instance? number = some i := by
    obtain ⟨key, held⟩ := (Table.mem_values_iff _ _).mp member
    obtain ⟨i, found, -⟩ := housed key number held
    exact ⟨i, found⟩
  obtain ⟨more, goes, count, samples⟩ :=
    take_each r (some stages.length) stages filed r.live.values [] moment there
  refine ⟨more, ?_⟩
  rw [run, List.foldl_cons, List.foldl_cons, List.foldl_cons, List.foldl_append]
  have listed : (((⟨r, none, stages, filed⟩ : Threads).step (.call .sampleAll)).step
      (.proceed stages.length first)).step (.proceed stages.length second) =
        ⟨r, some stages.length, stages ++ [.taking .round r.live.values []], filed⟩ := by
    rw [step, Request.stage, step_last, proceed, enter]
    simp only [goTo_last, Purpose.stage, step_last, proceed]
  rw [listed]
  rw [run] at goes
  rw [goes]
  simp only [List.map_cons, List.map_nil, List.foldl_cons, List.foldl_nil, goTo_last, step_last, proceed,
    file, leave, Purpose.answer, List.nil_append]
  rw [samples, count]
  rfl

theorem obtain_alone (typeName : String) (scope : Scope) (name trim : Option String)
    {got : Except Fault (Nat × Registry)} (asked : r.getInstance typeName scope name trim = got)
    (first second third : UInt64) :
    (⟨r, holder, stages, filed⟩ : Threads).run
        (.call (.obtain typeName scope name trim) ::
          [first, second, third].map (.proceed stages.length)) =
      ⟨(got.map (·.2)).toOption.getD r, holder,
        stages ++ [.done (.obtained (got.map (·.1)))], filed⟩ := by
  subst asked
  simp only [run, List.map_cons, List.map_nil, List.foldl_cons, List.foldl_nil]
  rw [step, Request.stage, step_last, proceed, find, Registry.getInstance_eq, Registry.type]
  cases known : r.types.get? typeName with
  | none =>
      simp only [goTo_last, step_last, proceed]
      rfl
  | some t =>
      simp only [goTo_last, step_last, proceed, look]
      cases held : r.live.get? ⟨typeName, scope.instanceName r.archive.processId name trim⟩ with
      | some number =>
          simp only [step_last, proceed, ok_bind]
          rfl
      | none =>
          simp only [goTo_last, step_last, proceed, ok_bind, held, make]
          rfl

end

end Threads

end Coordination
