import Coordination.Proofs.Statistics.Account

/-!
The books of a process through a whole history. Types stand in the archive in the order in which their
names first came up, a name that is live goes on leading to one instance until that instance is closed,
and no sample is ever lost or without a type.
-/

namespace Coordination.Registry

/-! Types. -/

def Event.registered? : Event → Option StatisticsType
  | .register t => some t
  | _ => none

/-- Each type unless one of its name comes before it. -/
def firstOfEachName : List StatisticsType → List StatisticsType
  | [] => []
  | t :: later => t :: (firstOfEachName later).filter fun s => s.name ≠ t.name

def names (types : List StatisticsType) : List String := types.map (·.name)

theorem mem_names_firstOfEachName {types : List StatisticsType} {name : String} :
    name ∈ names (firstOfEachName types) ↔ name ∈ names types := by
  induction types with
  | nil => rfl
  | cons t types induction =>
      have others : name ≠ t.name →
          (name ∈ names ((firstOfEachName types).filter fun s => s.name ≠ t.name) ↔
            name ∈ names (firstOfEachName types)) := by
        intro differs
        simp only [names, List.mem_map, List.mem_filter, decide_eq_true_eq]
        constructor
        · rintro ⟨s, ⟨member, -⟩, named⟩
          exact ⟨s, member, named⟩
        · rintro ⟨s, member, rfl⟩
          exact ⟨s, ⟨member, differs⟩, rfl⟩
      rw [firstOfEachName, names, names, List.map_cons, List.map_cons, List.mem_cons, List.mem_cons,
        ← names, ← names, ← induction]
      by_cases same : name = t.name
      · simp only [same, true_or]
      · rw [others same]

theorem nodup_firstOfEachName (types : List StatisticsType) :
    (names (firstOfEachName types)).Nodup := by
  induction types with
  | nil => exact List.nodup_nil
  | cons t types induction =>
      refine List.nodup_cons.mpr ⟨?_, induction.sublist (List.filter_sublist.map _)⟩
      rw [List.mem_map]
      rintro ⟨s, member, same⟩
      exact of_decide_eq_true (List.mem_filter.mp member).2 same

theorem firstOfEachName_concat_of_new {types : List StatisticsType} {t : StatisticsType}
    (new : t.name ∉ names types) :
    firstOfEachName (types ++ [t]) = firstOfEachName types ++ [t] := by
  induction types with
  | nil => rfl
  | cons u types induction =>
      obtain ⟨differs, others⟩ := not_or.mp (mt List.mem_cons.mpr new)
      have kept : [t].filter (fun s => s.name ≠ u.name) = [t] :=
        List.filter_cons_of_pos (decide_eq_true differs)
      rw [List.cons_append, firstOfEachName, firstOfEachName, induction others, List.filter_append,
        kept, List.cons_append]

theorem firstOfEachName_concat_of_old {types : List StatisticsType} {t : StatisticsType}
    (old : t.name ∈ names types) : firstOfEachName (types ++ [t]) = firstOfEachName types := by
  induction types with
  | nil => cases old
  | cons u types induction =>
      rw [List.cons_append, firstOfEachName, firstOfEachName]
      by_cases among : t.name ∈ names types
      · rw [induction among]
      · have same : t.name = u.name := (List.mem_cons.mp old).resolve_right among
        have dropped : [t].filter (fun s => s.name ≠ u.name) = [] :=
          List.filter_cons_of_neg (by simp [same])
        rw [firstOfEachName_concat_of_new among, List.filter_append, dropped, List.append_nil]

section

variable {r : Registry} (sound : Sound r)

include sound

theorem Sound.type_eq_ok_iff {name : String} {t : StatisticsType} :
    r.type name = .ok t ↔ t ∈ r.archive.types ∧ t.name = name := by
  rw [← sound.types, type]
  cases r.types.get? name with
  | none => simp
  | some known => simp

/-- A type is registered unless another one has its name. -/
theorem Sound.registerType_cases (t : StatisticsType) :
    t ∈ r.archive.types ∧ r.registerType t = .ok r ∨
    t.name ∉ names r.archive.types ∧
      (∃ next, r.registerType t = .ok next ∧ next.archive.types = r.archive.types ++ [t]) ∨
    (∃ s ∈ r.archive.types, s.name = t.name ∧ s ≠ t) ∧
      r.registerType t = .error (.descriptorMismatch t.name) := by
  rw [registerType_eq]
  cases found : r.types.get? t.name with
  | none =>
      have new (s : StatisticsType) (member : s ∈ r.archive.types) : s.name ≠ t.name := by
        intro named
        rw [(sound.types _ _).mpr ⟨member, named⟩] at found
        cases found
      refine .inr (.inl ⟨?_, _, rfl, Archive.types_addType _ new⟩)
      rw [names, List.mem_map]
      rintro ⟨s, member, named⟩
      exact new s member named
  | some s =>
      obtain ⟨member, named⟩ := (sound.types _ _).mp found
      by_cases same : s = t
      · exact .inl ⟨same ▸ member, if_pos same⟩
      · exact .inr (.inr ⟨⟨s, member, named, same⟩, if_neg same⟩)

end

theorem types_step_of_unregistered (r : Registry) {event : Event} (none : event.registered? = none) :
    (r.step event).archive.types = r.archive.types := by
  have change := r.change event
  generalize r.step event = next at change ⊢
  cases change with
  | kept | made known named absent | updated found done | sampled | closed found live => rfl
  | registered new => cases none

theorem Sound.types_step {r : Registry} (sound : Sound r) {earlier : List StatisticsType}
    (types : r.archive.types = firstOfEachName earlier) (event : Event) :
    (r.step event).archive.types = firstOfEachName (earlier ++ event.registered?.toList) := by
  cases event with
  | register t =>
      have among : t.name ∈ names r.archive.types ↔ t.name ∈ names earlier := by
        rw [types, mem_names_firstOfEachName]
      rw [Event.registered?, Option.toList_some, step_register]
      rcases sound.registerType_cases t with ⟨member, same⟩ | ⟨new, next, done, more⟩ |
        ⟨⟨s, member, named, -⟩, refused⟩
      · rw [same, firstOfEachName_concat_of_old (among.mp (List.mem_map_of_mem member))]
        exact types
      · rw [done, firstOfEachName_concat_of_new (mt among.mpr new), ← types]
        exact more
      · rw [refused, firstOfEachName_concat_of_old (among.mp (List.mem_map.mpr ⟨s, member, named⟩))]
        exact types
  | obtain | update | sampleAll | close =>
      rw [types_step_of_unregistered r rfl, types]
      exact congrArg firstOfEachName (List.append_nil _).symm

theorem types_after (processId : UInt32) (host : String) (events : List Event) :
    ((empty processId host).after events).archive.types =
      firstOfEachName (events.filterMap Event.registered?) := by
  induction events using List.reverseRecOn with
  | nil => rfl
  | append_singleton events event induction =>
      have sound := ((sound_empty processId host).after events).1
      rw [after_append, List.filterMap_append]
      have last : [event].filterMap Event.registered? = event.registered?.toList := by
        cases event <;> rfl
      rw [last]
      exact sound.types_step induction event

/-! Instances. -/

/-- The event closes an instance of this name. -/
def Event.Closes (r : Registry) (key : InstanceKey) : Event → Prop
  | .close number _ => (r.instance? number).map Instance.key = some key
  | _ => False

/-- None of the events does. -/
def Unclosed (r : Registry) (key : InstanceKey) : List Event → Prop
  | [] => True
  | event :: later => ¬ event.Closes r key ∧ Unclosed (r.step event) key later

theorem unclosed_of_append {r : Registry} {key : InstanceKey} {first others : List Event}
    (unclosed : Unclosed r key (first ++ others)) : Unclosed r key first := by
  induction first generalizing r with
  | nil => trivial
  | cons event first induction => exact ⟨unclosed.1, induction unclosed.2⟩

theorem processId_after (r : Registry) (events : List Event) :
    (r.after events).archive.processId = r.archive.processId := by
  induction events generalizing r with
  | nil => rfl
  | cons event events induction =>
      rw [after_cons, induction]
      have change := r.change event
      generalize r.step event = next at change ⊢
      cases change with
      | kept | made known named absent | updated found done | sampled | closed found live => rfl
      | registered new => rw [Archive.addType]; split <;> rfl

theorem live_step_of_closes {r : Registry} {key : InstanceKey} {event : Event}
    (closes : event.Closes r key) : (r.step event).live.get? key = none := by
  cases event with
  | close number now =>
      obtain ⟨i, found, rfl⟩ := Option.map_eq_some_iff.mp closes
      rw [step]
      cases held : r.live.get? i.key with
      | none =>
          rw [close_of_not_live now fun j alsoFound => by cases found.symm.trans alsoFound; exact held]
          exact held
      | some holder =>
          rw [close_of_live now found held]
          exact (Table.get?_erase _ _ _).trans (if_pos rfl)
  | register | obtain | update | sampleAll => cases closes

theorem live_step_of_held {r : Registry} {key : InstanceKey} {number : Nat} {event : Event}
    (held : r.live.get? key = some number) (spared : ¬ event.Closes r key) :
    (r.step event).live.get? key = some number := by
  have change := r.change event
  generalize r.step event = next at change ⊢
  cases change with
  | kept | registered new | updated found done | sampled => exact held
  | made known named absent =>
      have differs : key ≠ _ := fun same => Option.some_ne_none number (held.symm.trans (same ▸ absent))
      exact (Table.get?_insert _ _ _ _).trans ((if_neg differs).trans held)
  | closed found live =>
      have differs : key ≠ _ := fun same => spared (same ▸ congrArg (Option.map Instance.key) found)
      exact (Table.get?_erase _ _ _).trans ((if_neg differs).trans held)

theorem live_after_of_unclosed {r : Registry} {key : InstanceKey} {number : Nat} {later : List Event}
    (held : r.live.get? key = some number) (unclosed : Unclosed r key later) :
    (r.after later).live.get? key = some number := by
  induction later generalizing r with
  | nil => exact held
  | cons event later induction =>
      obtain ⟨first, others⟩ := unclosed
      exact induction (live_step_of_held held first) others

/-- Instances that are made from now on have larger numbers. -/
theorem live_after_ge {r : Registry} (sound : Sound r) {key : InstanceKey} {bound : Nat}
    (older : ∀ number, r.live.get? key = some number → bound ≤ number)
    (inside : bound ≤ r.titles.length) (later : List Event) {number : Nat}
    (held : (r.after later).live.get? key = some number) : bound ≤ number := by
  induction later generalizing r with
  | nil => exact older number held
  | cons event later induction =>
      have change := r.change event
      have more := (change.grown sound).titles.length_le
      refine induction (change.sound sound) ?_ (inside.trans more) held
      intro other stillHeld
      rcases change.live sound stillHeld with old | ⟨title, rfl, -⟩
      · exact older other old
      · exact inside

theorem live_after_of_closed {r : Registry} (sound : Sound r) {key : InstanceKey} {number : Nat}
    {later : List Event} (made : number < r.titles.length) (closed : ¬ Unclosed r key later) :
    (r.after later).live.get? key ≠ some number := by
  induction later generalizing r with
  | nil => exact absurd trivial closed
  | cons event later induction =>
      have stillSound := (r.change event).sound sound
      have more := ((r.change event).grown sound).titles.length_le
      by_cases closes : event.Closes r key
      · intro held
        have gone := live_step_of_closes closes
        have larger : (r.step event).titles.length ≤ number :=
          live_after_ge stillSound (fun other stillHeld => by rw [gone] at stillHeld; cases stillHeld)
            le_rfl later held
        omega
      · exact induction stillSound (made.trans_le more) fun rest => closed ⟨closes, rest⟩

section

variable {r : Registry} {typeName : String} {scope : Scope} {name trim : Option String}

/-- Name under which an instance is asked for. -/
def askedKey (r : Registry) (typeName : String) (scope : Scope) (name trim : Option String) :
    InstanceKey :=
  ⟨typeName, scope.instanceName r.archive.processId name trim⟩

theorem live_of_getInstance {number : Nat} {next : Registry}
    (got : r.getInstance typeName scope name trim = .ok (number, next)) :
    next.live.get? (r.askedKey typeName scope name trim) = some number ∧
      next = r.after [.obtain typeName scope name trim] := by
  have stepped : next = r.step (.obtain typeName scope name trim) := by rw [step_obtain, got]
  refine ⟨?_, stepped⟩
  rw [getInstance_eq] at got
  obtain ⟨t, -, got⟩ := bind_eq_ok_iff.mp got
  dsimp only at got
  split at got
  · rename_i held
    cases got
    exact held
  · cases got
    exact (Table.get?_insert _ _ _ _).trans (if_pos rfl)

variable (sound : Sound r)

include sound

theorem Sound.getInstance_of_held {number : Nat}
    (held : r.live.get? (r.askedKey typeName scope name trim) = some number) :
    r.getInstance typeName scope name trim = .ok (number, r) := by
  obtain ⟨title, there, named⟩ := sound.live _ _ held
  have known : r.type typeName = .ok title.type :=
    sound.type_eq_ok_iff.mpr
      ⟨sound.typed title (List.mem_of_getElem? there), congrArg InstanceKey.typeName named⟩
  rw [askedKey] at held
  rw [getInstance_eq, known, ok_bind]
  dsimp only
  rw [held]
  rfl

theorem Sound.getInstance_of_known (known : typeName ∈ names r.archive.types) :
    ∃ number next, r.getInstance typeName scope name trim = .ok (number, next) := by
  obtain ⟨t, member, named⟩ := List.mem_map.mp known
  have found : r.type typeName = .ok t := sound.type_eq_ok_iff.mpr ⟨member, named⟩
  rw [getInstance_eq, found, ok_bind]
  dsimp only
  split <;> exact ⟨_, _, rfl⟩

/-- A name goes on leading to the same instance, and after a close to a new one. -/
theorem Sound.getInstance_after {number : Nat} {next : Registry}
    (got : r.getInstance typeName scope name trim = .ok (number, next)) (later : List Event)
    {otherScope : Scope} {otherName otherTrim : Option String}
    (same : r.askedKey typeName otherScope otherName otherTrim = r.askedKey typeName scope name trim) :
    (Unclosed next (r.askedKey typeName scope name trim) later →
      (next.after later).getInstance typeName otherScope otherName otherTrim =
        .ok (number, next.after later)) ∧
    (¬ Unclosed next (r.askedKey typeName scope name trim) later →
      ∃ other last, (next.after later).getInstance typeName otherScope otherName otherTrim =
        .ok (other, last) ∧ other ≠ number) := by
  obtain ⟨held, stepped⟩ := live_of_getInstance got
  have soundNext : Sound next := stepped ▸ (sound.after _).1
  have processId : next.archive.processId = r.archive.processId := by rw [stepped, processId_after]
  obtain ⟨soundLast, grown⟩ := soundNext.after later
  have asked : (next.after later).askedKey typeName otherScope otherName otherTrim =
      r.askedKey typeName scope name trim := by
    rw [← same, askedKey, askedKey, processId_after, processId]
  obtain ⟨title, there, named⟩ := soundNext.live _ _ held
  refine ⟨?_, ?_⟩
  · intro unclosed
    exact soundLast.getInstance_of_held (asked ▸ live_after_of_unclosed held unclosed)
  · intro closed
    have known : typeName ∈ names (next.after later).archive.types :=
      List.mem_map.mpr ⟨title.type,
        grown.types.subset (soundNext.typed title (List.mem_of_getElem? there)),
        congrArg InstanceKey.typeName named⟩
    obtain ⟨other, last, gotOther⟩ := soundLast.getInstance_of_known known
    refine ⟨other, last, gotOther, ?_⟩
    rintro rfl
    obtain ⟨heldLast, steppedLast⟩ := live_of_getInstance gotOther
    rw [asked, steppedLast, ← after_append] at heldLast
    have made : other < next.titles.length := (List.getElem?_eq_some_iff.mp there).1
    exact live_after_of_closed soundNext made (mt unclosed_of_append closed) heldLast

end

/-! Samples. -/

theorem Sound.keys_liveInstances {r : Registry} (sound : Sound r) :
    r.liveInstances.map Instance.key = r.live.keys := by
  rw [liveInstances, Table.values, Table.keys, List.filterMap_map, List.map_filterMap,
    ← List.filterMap_eq_map]
  refine List.filterMap_congr fun entry member => ?_
  have held := (r.live.mem_entries_iff _ _).mp member
  obtain ⟨title, there, named⟩ := sound.live _ _ held
  rw [getElem?_titles] at there
  obtain ⟨i, found, rfl⟩ := Option.map_eq_some_iff.mp there
  rw [Function.comp_apply, found]
  exact congrArg some named

/-- One sample of each live instance, in the order of their names. -/
structure Round (r : Registry) (moment : Nat → UInt64) (round : List Sample) : Prop where
  keys : round.map Sample.key = r.live.keys
  ascending : round.Pairwise fun s next => s.typeName < next.typeName ∨
    s.typeName = next.typeName ∧ s.instanceName < next.instanceName
  each : ∀ place s, round[place]? = some s → ∃ number i,
    r.live.get? s.key = some number ∧ r.instance? number = some i ∧ s = i.sample (moment place)

theorem InstanceKey.lt_or_of_compare {a b : InstanceKey} (below : compare a b = .lt) :
    a.typeName < b.typeName ∨ a.typeName = b.typeName ∧ a.name < b.name := by
  have fields : compareLex (compareOn InstanceKey.typeName) (compareOn InstanceKey.name) a b = .lt :=
    below
  simp only [compareLex, compareOn, Ordering.then_eq_lt] at fields
  rcases fields with first | ⟨same, second⟩
  · exact .inl (compareOfLessAndEq_eq_lt.mp first)
  · exact .inr ⟨Std.LawfulEqCmp.eq_of_compare same, compareOfLessAndEq_eq_lt.mp second⟩

theorem Sound.sampleEach {r : Registry} (sound : Sound r) (moment : Nat → UInt64) :
    ∃ round, (r.sampleEach moment).archive.samples = r.archive.samples ++ round ∧
      Round r moment round := by
  refine ⟨_, rfl, ?_⟩
  have keys : (r.liveInstances.mapIdx fun place i => i.sample (moment place)).map Sample.key =
      r.live.keys := by
    rw [← sound.keys_liveInstances]
    refine List.ext_getElem? fun place => ?_
    rw [List.getElem?_map, List.getElem?_mapIdx, List.getElem?_map, Option.map_map]
    rfl
  refine ⟨keys, ?_, ?_⟩
  · have ascending := r.live.pairwise_keys
    rw [← keys, List.pairwise_map] at ascending
    exact ascending.imp InstanceKey.lt_or_of_compare
  · intro place s there
    rw [List.getElem?_mapIdx] at there
    obtain ⟨i, found, rfl⟩ := Option.map_eq_some_iff.mp there
    obtain ⟨number, isNumber, held⟩ := sound.mem_liveInstances (List.mem_of_getElem? found)
    exact ⟨number, i, held, isNumber, rfl⟩

theorem Sound.counted {r : Registry} (sound : Sound r) {archives : List Archive}
    (among : r.archive ∈ archives) {window : Option TimeWindow}
    {types : Table String StatisticsType} (merged : AggregateReport.mergedTypes archives = .ok types)
    {s : Sample} (member : s ∈ r.archive.samples) (within : s.Within window) :
    ∃ t ∈ types.values, (⟨r.archive.host, r.archive.processId, s.instanceName⟩, s) ∈
      AggregateReport.countedSamples t window archives := by
  obtain ⟨title, made, fits⟩ := sound.samples s member
  have declared : title.type ∈ AggregateReport.declarations archives :=
    List.mem_flatMap.mpr ⟨r.archive, among, sound.typed title made⟩
  rcases AggregateReport.mergedTypes_cases archives with
    ⟨others, alsoMerged, knows⟩ | ⟨_, _, _, _, _, _, mismatch⟩
  · cases merged.symm.trans alsoMerged
    refine ⟨title.type, (knows.mem_values_iff _).mpr declared, ?_⟩
    have counts := AggregateReport.counts_iff.mpr
      ⟨congrArg InstanceKey.typeName fits.key, within, fits.width⟩
    exact List.mem_flatMap.mpr
      ⟨r.archive, among, List.mem_map.mpr ⟨s, List.mem_filter.mpr ⟨member, counts⟩, rfl⟩⟩
  · cases merged.symm.trans mismatch

/-! All of it together. -/

structure TypesInOrder (r : Registry) (events : List Event) : Prop where
  archive : r.archive.types = firstOfEachName (events.filterMap Event.registered?)
  once : (names r.archive.types).Nodup
  known : ∀ name t, r.type name = .ok t ↔ t ∈ r.archive.types ∧ t.name = name
  refused : ∀ t fault, r.registerType t = .error fault ↔
    (∃ s ∈ r.archive.types, s.name = t.name ∧ s ≠ t) ∧ fault = .descriptorMismatch t.name
  unchanged : ∀ t fault, r.registerType t = .error fault → r.step (.register t) = r

/-- A name that was asked for leads to the same instance, whichever way it is put together, until an
instance of that name is closed. -/
structure InstancesFiled (r : Registry) : Prop where
  filed : ∀ key number, r.live.get? key = some number →
    ∃ i, r.instance? number = some i ∧ i.key = key ∧ r.type key.typeName = .ok i.type
  found : ∀ typeName scope name trim, (typeName ∈ names r.archive.types ↔
    ∃ number next, r.getInstance typeName scope name trim = .ok (number, next))
  same : ∀ typeName scope name trim number next,
    r.getInstance typeName scope name trim = .ok (number, next) →
    ∀ later otherScope otherName otherTrim,
      r.askedKey typeName otherScope otherName otherTrim = r.askedKey typeName scope name trim →
      let last := next.after later
      (Unclosed next (r.askedKey typeName scope name trim) later →
        last.getInstance typeName otherScope otherName otherTrim = .ok (number, last)) ∧
      (¬ Unclosed next (r.askedKey typeName scope name trim) later →
        ∃ other after, last.getInstance typeName otherScope otherName otherTrim = .ok (other, after) ∧
          other ≠ number)

/-- Samples are of known types, so that every one within the window counts for a report, and none is
ever taken back. -/
structure SamplesCounted (r : Registry) : Prop where
  typed : ∀ s ∈ r.archive.samples, ∃ t ∈ r.archive.types,
    t.name = s.typeName ∧ s.values.length = t.metrics.length
  merged : AggregateReport.mergedTypes [r.archive] = .ok r.types
  counted : ∀ archives, r.archive ∈ archives → ∀ window types,
    AggregateReport.mergedTypes archives = .ok types →
    ∀ s ∈ r.archive.samples, s.Within window → ∃ t ∈ types.values,
      (⟨r.archive.host, r.archive.processId, s.instanceName⟩, s) ∈
        AggregateReport.countedSamples t window archives
  grown : ∀ later, r.archive.samples <+: (r.after later).archive.samples
  sampled : ∀ moment, ∃ round,
    (r.step (.sampleAll moment)).archive.samples = r.archive.samples ++ round ∧ Round r moment round

theorem books_kept (processId : UInt32) (host : String) (events : List Event) :
    let r := (empty processId host).after events
    TypesInOrder r events ∧ InstancesFiled r ∧ SamplesCounted r := by
  intro r
  have sound : Sound r := ((sound_empty processId host).after events).1
  have types : r.archive.types = _ := types_after processId host events
  have refused (t : StatisticsType) (fault : Fault) : r.registerType t = .error fault ↔
      (∃ s ∈ r.archive.types, s.name = t.name ∧ s ≠ t) ∧ fault = .descriptorMismatch t.name := by
    rcases sound.registerType_cases t with ⟨member, done⟩ | ⟨new, next, done, -⟩ | ⟨differs, refused⟩
    · rw [done]
      refine ⟨nofun, ?_⟩
      rintro ⟨⟨s, first, named, differs⟩, -⟩
      exact absurd (sound.types.unique first member named) differs
    · rw [done]
      refine ⟨nofun, ?_⟩
      rintro ⟨⟨s, first, named, -⟩, -⟩
      exact absurd (List.mem_map.mpr ⟨s, first, named⟩) new
    · rw [refused, and_iff_right differs, Except.error.injEq, eq_comm]
  have filed (key : InstanceKey) (number : Nat) (held : r.live.get? key = some number) :
      ∃ i, r.instance? number = some i ∧ i.key = key ∧ r.type key.typeName = .ok i.type := by
    obtain ⟨title, there, named⟩ := sound.live key number held
    have known := sound.typed title (List.mem_of_getElem? there)
    rw [getElem?_titles] at there
    obtain ⟨i, found, rfl⟩ := Option.map_eq_some_iff.mp there
    exact ⟨i, found, named, sound.type_eq_ok_iff.mpr ⟨known, congrArg InstanceKey.typeName named⟩⟩
  have found (typeName : String) (scope : Scope) (name trim : Option String) :
      typeName ∈ names r.archive.types ↔
        ∃ number next, r.getInstance typeName scope name trim = .ok (number, next) := by
    refine ⟨sound.getInstance_of_known, ?_⟩
    rintro ⟨number, next, got⟩
    rw [getInstance_eq] at got
    obtain ⟨t, known, -⟩ := bind_eq_ok_iff.mp got
    obtain ⟨member, named⟩ := sound.type_eq_ok_iff.mp known
    exact List.mem_map.mpr ⟨t, member, named⟩
  have typed (s : Sample) (member : s ∈ r.archive.samples) : ∃ t ∈ r.archive.types,
      t.name = s.typeName ∧ s.values.length = t.metrics.length := by
    obtain ⟨title, made, fits⟩ := sound.samples s member
    exact ⟨title.type, sound.typed title made, (congrArg InstanceKey.typeName fits.key).symm, fits.width⟩
  refine ⟨⟨types, ?_, fun _ _ => sound.type_eq_ok_iff, refused, ?_⟩, ⟨filed, found, ?_⟩,
    ⟨typed, sound.mergedTypes_eq, ?_, fun later => (sound.after later).2.samples, sound.sampleEach⟩⟩
  · rw [types]
    exact nodup_firstOfEachName _
  · intro t fault failed
    rw [step_register, failed]
    rfl
  · intro typeName scope name trim number next got later otherScope otherName otherTrim
    exact sound.getInstance_after got later
  · intro archives among window types merged s member within
    exact sound.counted among merged member within

end Coordination.Registry
