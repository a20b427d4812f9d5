import Coordination.Proofs.Statistics.Instance
import Coordination.Proofs.Statistics.Types

/-!
What every event keeps in the statistics of a process. Instances stay what they are and where they are,
the live ones are found under their names, and each sample is one of an instance.
-/

namespace Coordination

open AggregateReport (Knows)

/-- What stays of an instance while its values change. -/
structure Title where
  type : StatisticsType
  name : String
  deriving DecidableEq

def Title.key (title : Title) : InstanceKey := ⟨title.type.name, title.name⟩

def Sample.key (s : Sample) : InstanceKey := ⟨s.typeName, s.instanceName⟩

/-- The sample is one of an instance of this title, with a value for each metric. -/
structure Sample.Fits (s : Sample) (title : Title) : Prop where
  key : s.key = title.key
  width : s.values.length = title.type.metrics.length

theorem Archive.types_addType (a : Archive) {t : StatisticsType}
    (new : ∀ s ∈ a.types, s.name ≠ t.name) : (a.addType t).types = a.types ++ [t] := by
  have absent : a.type? t.name = none := by
    rw [type?, List.find?_eq_none]
    exact fun s member => by simpa using new s member
  rw [addType, absent]
  rfl

theorem Archive.samples_addType (a : Archive) (t : StatisticsType) :
    (a.addType t).samples = a.samples := by
  rw [addType]
  split <;> rfl

namespace Instance

def title (i : Instance) : Title := ⟨i.type, i.name⟩

theorem fits_sample (i : Instance) (now : UInt64) : (i.sample now).Fits i.title where
  key := rfl
  width := by simp only [sample, values, List.length_map, List.length_finRange, title]

theorem title_of_perform {i j : Instance} {u : Update} (done : i.perform u = .ok j) :
    j.title = i.title := by
  obtain ⟨_, ran⟩ := InPlace.final_eq_ok_iff.mp done
  obtain ⟨p, change, rfl⟩ := (InPlace.spares_iff.mp (i.spares_inPlace u)).1 _ _ ran
  rfl

end Instance

namespace Registry

/-- Titles of all instances ever made, in the order of their numbers. -/
def titles (r : Registry) : List Title := r.instances.map (·.title)

theorem getElem?_titles (r : Registry) (number : Nat) :
    r.titles[number]? = (r.instance? number).map Instance.title := List.getElem?_map

theorem titled {r : Registry} {number : Nat} {i : Instance} (found : r.instance? number = some i) :
    r.titles[number]? = some i.title := by
  rw [getElem?_titles, found, Option.map_some]

theorem titles_replaceInstance {r : Registry} {number : Nat} {i j : Instance}
    (found : r.instance? number = some i) (same : j.title = i.title) :
    (r.replaceInstance number j).titles = r.titles := by
  obtain ⟨inside, here⟩ := List.getElem?_eq_some_iff.mp (titled found)
  rw [replaceInstance, titles, List.map_set, same, ← here]
  exact List.set_getElem_self inside

/-! Types and instances, in place and as values. -/

theorem on_ensureType (r : Registry) (t : StatisticsType) :
    (ensureType t).on r =
      match r.types.get? t.name with
      | some registered =>
          if registered = t then (.ok (), r) else (.error (.descriptorMismatch t.name), r)
      | none =>
          (.ok (), { r with types := r.types.insert t.name t, archive := r.archive.addType t }) := by
  rw [ensureType, InPlace.on_get_bind]
  cases r.types.get? t.name with
  | none => rfl
  | some registered => by_cases same : registered = t <;> simp [same]

theorem registerType_eq (r : Registry) (t : StatisticsType) :
    r.registerType t =
      match r.types.get? t.name with
      | some registered => if registered = t then .ok r else .error (.descriptorMismatch t.name)
      | none => .ok { r with types := r.types.insert t.name t, archive := r.archive.addType t } := by
  rw [registerType, InPlace.final, InPlace.value, on_ensureType]
  cases r.types.get? t.name with
  | none => rfl
  | some registered => by_cases same : registered = t <;> simp [same]

/-- A type that is refused spares the registry. -/
theorem step_register (r : Registry) (t : StatisticsType) :
    r.step (.register t) = (r.registerType t).toOption.getD r := by
  rw [step, InPlace.left, on_ensureType, registerType_eq]
  cases r.types.get? t.name with
  | none => rfl
  | some registered => by_cases same : registered = t <;> simp [same, Except.toOption]

theorem on_ensureInstance (r : Registry) (typeName : String) (scope : Scope)
    (name trim : Option String) :
    let key : InstanceKey := ⟨typeName, scope.instanceName r.archive.processId name trim⟩
    (ensureInstance typeName scope name trim).on r =
      match r.type typeName, r.live.get? key with
      | .error fault, _ => (.error fault, r)
      | .ok _, some number => (.ok number, r)
      | .ok t, none =>
          (.ok r.instances.length,
            { r with
              instances := r.instances ++ [.fresh t key.name scope]
              live := r.live.insert key r.instances.length }) := by
  intro key
  rw [ensureInstance, InPlace.on_get_bind]
  cases known : r.type typeName with
  | error fault => rfl
  | ok t =>
      rw [InPlace.on_ofResult_bind rfl]
      dsimp only
      cases r.live.get? key <;> rfl

theorem getInstance_eq (r : Registry) (typeName : String) (scope : Scope)
    (name trim : Option String) :
    r.getInstance typeName scope name trim = do
      let t ← r.type typeName
      let key : InstanceKey := ⟨typeName, scope.instanceName r.archive.processId name trim⟩
      match r.live.get? key with
      | some number => return (number, r)
      | none =>
          return (r.instances.length,
            { r with
              instances := r.instances ++ [.fresh t key.name scope]
              live := r.live.insert key r.instances.length }) := by
  rw [getInstance, InPlace.value, on_ensureInstance]
  cases r.type typeName with
  | error fault => rfl
  | ok t =>
      rw [ok_bind]
      dsimp only
      cases r.live.get? ⟨typeName, scope.instanceName r.archive.processId name trim⟩ <;> rfl

/-- Asking in vain for an instance spares the registry. -/
theorem step_obtain (r : Registry) (typeName : String) (scope : Scope) (name trim : Option String) :
    r.step (.obtain typeName scope name trim) =
      match r.getInstance typeName scope name trim with
      | .ok (_, next) => next
      | .error _ => r := by
  rw [step, InPlace.left, getInstance, InPlace.value, on_ensureInstance]
  cases r.type typeName with
  | error fault => rfl
  | ok t => cases r.live.get? ⟨typeName, scope.instanceName r.archive.processId name trim⟩ <;> rfl

theorem replaceInstance_self {r : Registry} {number : Nat} {i : Instance}
    (found : r.instance? number = some i) : r.replaceInstance number i = r := by
  obtain ⟨inside, rfl⟩ := List.getElem?_eq_some_iff.mp found
  rw [replaceInstance, List.set_getElem_self]

theorem update_eq (r : Registry) (number : Nat) (u : Instance.Update) :
    r.update number u =
      match r.instance? number with
      | none => .ok r
      | some i => (i.perform u).map (r.replaceInstance number) := by
  rw [update, InPlace.final, InPlace.value, updateInstance, InPlace.on_get_bind]
  cases r.instance? number with
  | none => rfl
  | some i =>
      unfold Instance.perform InPlace.final InPlace.value
      dsimp only
      rcases u.inPlace.on i with ⟨_ | _, after⟩ <;> rfl

/-- An update that is refused spares the registry. -/
theorem left_updateInstance (r : Registry) (number : Nat) (u : Instance.Update) :
    (updateInstance number u).left r = (r.update number u).toOption.getD r := by
  rw [InPlace.left, update_eq, updateInstance, InPlace.on_get_bind]
  cases found : r.instance? number with
  | none => rfl
  | some i =>
      dsimp only
      rw [(i.spares_inPlace u).on_eq, Instance.perform, InPlace.final]
      cases u.inPlace.value i with
      | error fault => exact replaceInstance_self found
      | ok done => rfl

/-! Closing. -/

theorem close_of_live {r : Registry} {number holder : Nat} {i : Instance} (now : UInt64)
    (found : r.instance? number = some i) (live : r.live.get? i.key = some holder) :
    r.close number now =
      (true, { r with
        live := r.live.erase i.key
        archive := r.archive.addSamples [i.sample now] }) := by
  simp [close, found, deregister, Table.contains, live, addSamples]

theorem close_of_not_live {r : Registry} {number : Nat} (now : UInt64)
    (absent : ∀ i, r.instance? number = some i → r.live.get? i.key = none) :
    r.close number now = (false, r) := by
  cases found : r.instance? number with
  | none => simp only [close, found]
  | some i =>
      have gone := absent i found
      simp [close, found, deregister, Table.contains, gone, Table.erase_of_get? gone]

/-! What an event does. -/

inductive Change : Registry → Event → Registry → Prop
  | kept {r : Registry} {event : Event} : Change r event r
  | registered {r : Registry} {t : StatisticsType} (new : r.types.get? t.name = none) :
      Change r (.register t)
        { r with types := r.types.insert t.name t, archive := r.archive.addType t }
  | made {r : Registry} {t : StatisticsType} {typeName : String} {scope : Scope}
      {name trim : Option String} {key : InstanceKey} (known : r.types.get? typeName = some t)
      (named : key = ⟨typeName, scope.instanceName r.archive.processId name trim⟩)
      (absent : r.live.get? key = none) :
      Change r (.obtain typeName scope name trim)
        { r with
          instances := r.instances ++ [.fresh t key.name scope]
          live := r.live.insert key r.instances.length }
  | updated {r : Registry} {number : Nat} {u : Instance.Update} {i j : Instance}
      (found : r.instance? number = some i) (done : i.perform u = .ok j) :
      Change r (.update number u) (r.replaceInstance number j)
  | sampled {r : Registry} {moment : Nat → UInt64} :
      Change r (.sampleAll moment) (r.sampleEach moment)
  | closed {r : Registry} {number holder : Nat} {now : UInt64} {i : Instance}
      (found : r.instance? number = some i) (live : r.live.get? i.key = some holder) :
      Change r (.close number now)
        { r with live := r.live.erase i.key, archive := r.archive.addSamples [i.sample now] }

theorem change (r : Registry) (event : Event) : Change r event (r.step event) := by
  cases event with
  | register t =>
      rw [step_register, registerType_eq]
      cases found : r.types.get? t.name with
      | none => exact .registered found
      | some registered =>
          dsimp only
          split <;> exact .kept
  | obtain typeName scope name trim =>
      rw [step_obtain, getInstance_eq, type]
      cases known : r.types.get? typeName with
      | none => exact .kept
      | some t =>
          rw [ok_bind]
          dsimp only
          cases absent : r.live.get? ⟨typeName, scope.instanceName r.archive.processId name trim⟩ with
          | none => exact .made known rfl absent
          | some number => exact .kept
  | update number u =>
      rw [step, left_updateInstance, update_eq]
      cases found : r.instance? number with
      | none => exact .kept
      | some i =>
          dsimp only
          cases done : i.perform u with
          | error fault => exact .kept
          | ok j => exact .updated found done
  | sampleAll moment => exact .sampled
  | close number now =>
      rw [step]
      by_cases live : ∃ i holder, r.instance? number = some i ∧ r.live.get? i.key = some holder
      · obtain ⟨i, holder, found, held⟩ := live
        rw [close_of_live now found held]
        exact .closed found held
      · rw [close_of_not_live]
        · exact .kept
        · intro i found
          rw [Option.eq_none_iff_forall_ne_some]
          exact fun holder held => live ⟨i, holder, found, held⟩

/-! What is always so. -/

structure Sound (r : Registry) : Prop where
  types : Knows r.types r.archive.types
  typed : ∀ title ∈ r.titles, title.type ∈ r.archive.types
  live : ∀ key number, r.live.get? key = some number →
    ∃ title, r.titles[number]? = some title ∧ title.key = key
  samples : ∀ s ∈ r.archive.samples, ∃ title ∈ r.titles, s.Fits title

theorem sound_empty (processId : UInt32) (host : String) : Sound (empty processId host) where
  types := AggregateReport.knows_empty
  typed _ member := absurd member List.not_mem_nil
  live _ _ found := nomatch found
  samples _ member := absurd member List.not_mem_nil

theorem Sound.key_eq {r : Registry} (sound : Sound r) {key : InstanceKey} {number : Nat}
    {i : Instance} (held : r.live.get? key = some number) (found : r.instance? number = some i) :
    i.key = key := by
  obtain ⟨title, there, named⟩ := sound.live key number held
  rw [titled found] at there
  cases there
  exact named

theorem Sound.mem_liveInstances {r : Registry} (sound : Sound r) {i : Instance}
    (member : i ∈ r.liveInstances) :
    ∃ number, r.instance? number = some i ∧ r.live.get? i.key = some number := by
  obtain ⟨number, isLive, found⟩ := List.mem_filterMap.mp member
  obtain ⟨key, held⟩ := (Table.mem_values_iff _ _).mp isLive
  exact ⟨number, found, sound.key_eq held found ▸ held⟩

section

variable {r next : Registry} {event : Event}

theorem Change.titles (change : Change r event next) (sound : Sound r) :
    ∃ made, next.titles = r.titles ++ made ∧ ∀ title ∈ made, title.type ∈ r.archive.types := by
  cases change with
  | kept | registered new | sampled | closed found live =>
      exact ⟨[], (List.append_nil _).symm, nofun⟩
  | made known named absent =>
      exact ⟨_, List.map_append, List.forall_mem_singleton.mpr ((sound.types _ _).mp known).1⟩
  | updated found done =>
      refine ⟨[], ?_, nofun⟩
      rw [titles_replaceInstance found (Instance.title_of_perform done), List.append_nil]

theorem Change.types (change : Change r event next) (sound : Sound r) :
    ∃ added, next.archive.types = r.archive.types ++ added ∧ Knows next.types next.archive.types := by
  cases change with
  | kept | made known named absent | updated found done | sampled | closed found live =>
      exact ⟨[], (List.append_nil _).symm, sound.types⟩
  | @registered t new =>
      have added := Archive.types_addType r.archive fun s member same =>
        Option.some_ne_none s (((sound.types _ _).mpr ⟨member, same⟩).symm.trans new)
      refine ⟨[t], added, ?_⟩
      rw [added]
      exact sound.types.insert new

theorem Change.samples (change : Change r event next) (sound : Sound r) :
    ∃ taken, next.archive.samples = r.archive.samples ++ taken ∧
      ∀ s ∈ taken, (∃ title ∈ r.titles, s.Fits title) ∧ ∃ number, r.live.get? s.key = some number := by
  have fitting {number : Nat} {i : Instance} (found : r.instance? number = some i) (now : UInt64) :
      ∃ title ∈ r.titles, (i.sample now).Fits title :=
    ⟨i.title, List.mem_of_getElem? (titled found), i.fits_sample now⟩
  cases change with
  | kept | made known named absent | updated found done =>
      exact ⟨[], (List.append_nil _).symm, nofun⟩
  | registered new =>
      refine ⟨[], ?_, nofun⟩
      rw [Archive.samples_addType, List.append_nil]
  | closed found live => exact ⟨_, rfl, List.forall_mem_singleton.mpr ⟨fitting found _, _, live⟩⟩
  | sampled =>
      refine ⟨_, rfl, ?_⟩
      intro s member
      obtain ⟨place, inside, rfl⟩ := List.mem_mapIdx.mp member
      obtain ⟨number, found, held⟩ := sound.mem_liveInstances (List.getElem_mem inside)
      exact ⟨fitting found _, number, held⟩

theorem Change.live (change : Change r event next) (sound : Sound r) {key : InstanceKey}
    {number : Nat} (held : next.live.get? key = some number) :
    r.live.get? key = some number ∨
      ∃ title, number = r.titles.length ∧ next.titles = r.titles ++ [title] ∧ title.key = key := by
  cases change with
  | kept | registered new | updated found done | sampled => exact .inl held
  | @made t _ _ _ _ fresh known named absent =>
      rw [Table.get?_insert] at held
      split at held
      · -- The key has the name that was asked for, which is the name of the type that was found.
        rename_i same
        cases held
        refine .inr ⟨⟨t, fresh.name⟩, (List.length_map _).symm, List.map_append, ?_⟩
        rw [Title.key, ((sound.types _ _).mp known).2, same, named]
      · exact .inl held
  | closed found live =>
      rw [Table.get?_erase] at held
      split at held
      · cases held
      · exact .inl held

theorem Change.absent (change : Change r event next) (sound : Sound r) {key : InstanceKey}
    {made : List Title} (titles : next.titles = r.titles ++ made)
    (nobody : ∀ title ∈ made, title.key ≠ key) (absent : r.live.get? key = none) :
    next.live.get? key = none ∧
      next.archive.samples.filter (·.key = key) = r.archive.samples.filter (·.key = key) := by
  constructor
  · rw [Option.eq_none_iff_forall_ne_some]
    intro number held
    rcases change.live sound held with old | ⟨title, -, grown, named⟩
    · rw [absent] at old
      cases old
    · rw [titles] at grown
      exact nobody title (by simp [List.append_cancel_left grown]) named
  · obtain ⟨taken, samples, live⟩ := change.samples sound
    have none : taken.filter (·.key = key) = [] := by
      rw [List.filter_eq_nil_iff]
      intro s member same
      obtain ⟨-, number, held⟩ := live s member
      rw [of_decide_eq_true same, absent] at held
      cases held
    rw [samples, List.filter_append, none, List.append_nil]

theorem Change.sound (change : Change r event next) (sound : Sound r) : Sound next := by
  obtain ⟨made, titles, known⟩ := change.titles sound
  obtain ⟨added, types, knows⟩ := change.types sound
  obtain ⟨taken, samples, fit⟩ := change.samples sound
  refine ⟨knows, ?_, ?_, ?_⟩
  · intro title member
    rw [types]
    rcases List.mem_append.mp (titles ▸ member) with old | new
    · exact List.mem_append_left _ (sound.typed title old)
    · exact List.mem_append_left _ (known title new)
  · intro key number held
    rcases change.live sound held with old | ⟨title, rfl, titles, named⟩
    · obtain ⟨title, there, named⟩ := sound.live key number old
      refine ⟨title, ?_, named⟩
      rw [titles]
      exact List.getElem?_append_left (List.getElem?_eq_some_iff.mp there).1 |>.trans there
    · exact ⟨title, by rw [titles, List.getElem?_concat_length], named⟩
  · intro s member
    rw [titles]
    rcases List.mem_append.mp (samples ▸ member) with old | new
    · obtain ⟨title, there, fits⟩ := sound.samples s old
      exact ⟨title, List.mem_append_left _ there, fits⟩
    · obtain ⟨title, there, fits⟩ := (fit s new).1
      exact ⟨title, List.mem_append_left _ there, fits⟩

theorem Change.instance? (change : Change r event next) {number : Nat} {i : Instance}
    (there : r.instance? number = some i) (untouched : event.updated? ≠ some number) :
    next.instance? number = some i := by
  cases change with
  | kept | registered new | sampled | closed found live => exact there
  | made known named absent =>
      obtain ⟨inside, -⟩ := List.getElem?_eq_some_iff.mp there
      exact (List.getElem?_append_left inside).trans there
  | updated found done => exact (List.getElem?_set_ne (mt (congrArg some) untouched)).trans there

end

/-! Whole histories. -/

theorem after_cons (r : Registry) (event : Event) (events : List Event) :
    r.after (event :: events) = (r.step event).after events := rfl

theorem after_append (r : Registry) (earlier later : List Event) :
    r.after (earlier ++ later) = (r.after earlier).after later := List.foldl_append

/-- What is known, made and sampled stays, and more comes after it. -/
structure Grown (r next : Registry) : Prop where
  types : r.archive.types <+: next.archive.types
  titles : r.titles <+: next.titles
  samples : r.archive.samples <+: next.archive.samples

theorem Change.grown {r next : Registry} {event : Event} (change : Change r event next)
    (sound : Sound r) : Grown r next := by
  obtain ⟨added, types, -⟩ := change.types sound
  obtain ⟨made, titles, -⟩ := change.titles sound
  obtain ⟨taken, samples, -⟩ := change.samples sound
  exact ⟨⟨added, types.symm⟩, ⟨made, titles.symm⟩, ⟨taken, samples.symm⟩⟩

theorem Sound.after {r : Registry} (sound : Sound r) (events : List Event) :
    Sound (r.after events) ∧ Grown r (r.after events) := by
  induction events generalizing r with
  | nil => exact ⟨sound, List.prefix_rfl, List.prefix_rfl, List.prefix_rfl⟩
  | cons event events induction =>
      obtain ⟨types, titles, samples⟩ := (r.change event).grown sound
      obtain ⟨stillSound, moreTypes, moreTitles, moreSamples⟩ :=
        induction ((r.change event).sound sound)
      exact ⟨stillSound, types.trans moreTypes, titles.trans moreTitles, samples.trans moreSamples⟩

theorem instance?_after {r : Registry} {number : Nat} {i : Instance} {events : List Event}
    (found : r.instance? number = some i)
    (untouched : ∀ event ∈ events, event.updated? ≠ some number) :
    (r.after events).instance? number = some i := by
  induction events generalizing r with
  | nil => exact found
  | cons event events induction =>
      obtain ⟨first, others⟩ := List.forall_mem_cons.mp untouched
      exact induction ((r.change event).instance? found first) others

/-- As long as nobody makes an instance of this name, it stays absent and there are no samples of it. -/
theorem absent_after {r : Registry} (sound : Sound r) {key : InstanceKey} {events : List Event}
    {later : List Title} (made : (r.after events).titles = r.titles ++ later)
    (nobody : ∀ title ∈ later, title.key ≠ key) (absent : r.live.get? key = none) :
    (r.after events).live.get? key = none ∧
      (r.after events).archive.samples.filter (·.key = key) =
        r.archive.samples.filter (·.key = key) := by
  induction events generalizing r later with
  | nil => exact ⟨absent, rfl⟩
  | cons event events induction =>
      have change := r.change event
      have stillSound := change.sound sound
      obtain ⟨first, titles, -⟩ := change.titles sound
      obtain ⟨others, moreTitles⟩ := (stillSound.after events).2.titles
      have parts : later = first ++ others := by
        rw [titles, List.append_assoc] at moreTitles
        exact (List.append_cancel_left (moreTitles.trans made)).symm
      obtain ⟨nobodyFirst, nobodyElse⟩ := List.forall_mem_append.mp (parts ▸ nobody)
      obtain ⟨stillAbsent, same⟩ := change.absent sound titles nobodyFirst absent
      obtain ⟨absentAfter, alsoSame⟩ := induction stillSound moreTitles.symm nobodyElse stillAbsent
      exact ⟨absentAfter, alsoSame.trans same⟩

end Registry

end Coordination
