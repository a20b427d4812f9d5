import Coordination.Proofs.Board.Transcript
import Coordination.Proofs.Json.Normalized
import Mathlib.Data.Finset.Card

/-!
The shared map is a map of values. It is filed by the texts of its keys, and still answers for each key
what was put there last, since two keys with one text stand for the same value.
-/

namespace Coordination

/-! Keys. -/

theorem keyText_eq (key : Json) : keyText key = (keyValue key).text := by
  rw [keyText, keyValue, Json.text, Json.text, Json.chars_plain]

theorem keyText_eq_iff {k l : Json} : keyText k = keyText l ↔ keyValue k = keyValue l :=
  Json.text_eq_iff

theorem keyValue_of_valid {key : Json} (valid : key.Valid) : keyValue key = key := by
  rw [keyValue, key.normalized_of_valid valid, key.plain_of_valid valid]

/-! The entries of a board, by what has been put into them. -/

/-- The entries hold what has been put into them, and nothing else. -/
structure Entries.Hold (entries : Entries) (posted : List (Json × Json)) : Prop where
  keys : ∀ entry ∈ posted, ∃ key, entry.1 = keyValue key
  found : ∀ key, entries.get? (keyText key) = posted.lookup (keyValue key)
  texts : ∀ text value, entries.get? text = some value → ∃ key, text = keyText key

namespace Entries

variable {entries : Entries} {posted : List (Json × Json)}

theorem hold_empty : Hold .empty [] where
  keys := fun _ member => nomatch member
  found := fun _ => rfl
  texts := by
    rintro text value ⟨⟩

theorem Hold.insert (hold : Hold entries posted) (key value : Json) :
    Hold (entries.insert (keyText key) value) ((keyValue key, value) :: posted) where
  keys := by
    intro entry member
    rcases List.mem_cons.mp member with rfl | earlier
    · exact ⟨key, rfl⟩
    · exact hold.keys entry earlier
  found := by
    intro other
    rw [Table.get?_insert, hold.found, List.lookup_cons]
    by_cases same : keyValue other = keyValue key
    · simp [same, keyText_eq_iff.mpr same]
    · have apart : keyText other ≠ keyText key := fun texts => same (keyText_eq_iff.mp texts)
      simp [beq_eq_false_iff_ne.mpr same, apart]
  texts := by
    intro text found present
    rw [Table.get?_insert] at present
    split at present
    · exact ⟨key, by assumption⟩
    · exact hold.texts text found present

theorem Hold.mem_entries_iff (hold : Hold entries posted) (text : String) (value : Json) :
    (text, value) ∈ entries.entries ↔
      ∃ key, keyText key = text ∧ posted.lookup (keyValue key) = some value := by
  rw [Table.mem_entries_iff]
  constructor
  · intro present
    obtain ⟨key, rfl⟩ := hold.texts text value present
    exact ⟨key, rfl, hold.found key ▸ present⟩
  · rintro ⟨key, rfl, present⟩
    rw [hold.found, present]

/-- There are as many entries as values that have been put there as keys. -/
theorem Hold.size_eq (hold : Hold entries posted) :
    entries.size = (posted.map (·.1)).toFinset.card := by
  have texts : (entries.entries.map (·.1)).toFinset =
      (posted.map (·.1)).toFinset.image Json.text := by
    ext text
    simp only [List.mem_toFinset, List.mem_map, Finset.mem_image]
    constructor
    · rintro ⟨⟨_, value⟩, member, rfl⟩
      obtain ⟨key, rfl, present⟩ := (hold.mem_entries_iff _ value).mp member
      obtain ⟨before, after, rfl, -⟩ := List.lookup_eq_some_iff.mp present
      exact ⟨keyValue key, ⟨(keyValue key, value), by simp, rfl⟩, (keyText_eq key).symm⟩
    · rintro ⟨_, ⟨entry, member, rfl⟩, rfl⟩
      obtain ⟨key, same⟩ := hold.keys entry member
      have present : (posted.lookup (keyValue key)).isSome := by
        rw [List.lookup_isSome_iff]
        exact ⟨entry, member, by simp [same]⟩
      obtain ⟨value, present⟩ := Option.isSome_iff_exists.mp present
      exact ⟨(keyText key, value), (hold.mem_entries_iff _ value).mpr ⟨key, rfl, present⟩,
        by rw [keyText_eq, same]⟩
  have distinct : Set.InjOn Json.text (posted.map (·.1)).toFinset := by
    intro first isFirst second isSecond same
    simp only [Finset.mem_coe, List.mem_toFinset, List.mem_map] at isFirst isSecond
    obtain ⟨entry, member, rfl⟩ := isFirst
    obtain ⟨other, otherMember, rfl⟩ := isSecond
    obtain ⟨key, keyEq⟩ := hold.keys entry member
    obtain ⟨otherKey, otherEq⟩ := hold.keys other otherMember
    rw [keyEq, otherEq, ← keyText_eq, ← keyText_eq] at same
    rw [keyEq, otherEq, keyText_eq_iff.mp same]
  rw [← Finset.card_image_of_injOn distinct, ← texts,
    List.toFinset_card_of_nodup entries.ascending.nodup_keys, List.length_map]
  rfl

end Entries

theorem Operation.hold_onBoard {owner : String} {lockTimeout : Option UInt64} {b after : Board}
    {operation : Operation} {answer : Answer} {posted : List (Json × Json)}
    (done : operation.onBoard owner lockTimeout b = some (.ok (answer, after)))
    (hold : b.entries.Hold posted) : after.entries.Hold (operation.post posted) := by
  have counters {changed : Board} {change : Counter → Int64 × Counter} {id : CounterId}
      {n : Int64} (applied : b.applyCounter change id = .ok (n, changed)) :
      changed.entries.Hold posted := by
    obtain ⟨counters, rfl, -⟩ := Host.applyCounter_confined applied
    exact hold
  have acquired {name : String} {timeout : Option UInt64}
      (acquired : (b.acquire name owner timeout).map (Operation.done <$> ·) =
        some (.ok (answer, after))) : after.entries.Hold posted := by
    simp only [Option.map_eq_some_iff, map_eq_ok_iff] at acquired
    obtain ⟨_, acquired, changed, rfl, same⟩ := acquired
    cases same
    obtain ⟨locks, rfl, -⟩ := Host.acquire_confined acquired
    exact hold
  cases operation with
  | increment id | incrementBy id | decrement id | incrementAndRead id | addAndRead id | zero id =>
      simp only [onBoard, Option.some.injEq, answered, map_eq_ok_iff] at done
      obtain ⟨_, applied, same⟩ := done
      cases same
      exact counters applied
  | setIfLarger id candidate =>
      simp only [onBoard, Option.some.injEq, answered, Board.raiseCounter_eq, map_eq_ok_iff] at done
      obtain ⟨_, ⟨_, raised, rfl⟩, same⟩ := done
      cases same
      exact counters raised
  | read id =>
      simp only [onBoard, Option.some.injEq, map_eq_ok_iff] at done
      obtain ⟨value, -, same⟩ := done
      cases same
      exact hold
  | lock name | lockWithin name timeoutMs => exact acquired done
  | unlock name =>
      simp only [onBoard, Option.some.injEq, map_eq_ok_iff] at done
      obtain ⟨changed, released, same⟩ := done
      cases same
      obtain ⟨locks, rfl, -⟩ := Host.release_confined released
      exact hold
  | put key value =>
      cases done
      exact hold.insert key value
  | clear =>
      cases done
      exact Entries.hold_empty
  | readAll | get | containsKey | size | snapshot =>
      cases done
      exact hold

theorem Transcript.postings_concat (operations : List Operation) (operation : Operation) :
    postings (operations ++ [operation]) = operation.post (postings operations) := by
  rw [postings, List.foldl_append]
  rfl

theorem Board.Undergoes.hold {name : String} {schema : Schema} {t : Transcript} {after : Board}
    (undergone : (fresh name schema).Undergoes t after) :
    after.entries.Hold (Transcript.postings t.operations) := by
  induction undergone with
  | nothing => exact Entries.hold_empty
  | operation _ done hold =>
      rw [Transcript.operations_concat, Transcript.postings_concat]
      exact Operation.hold_onBoard done hold

/-! Through handles. -/

namespace Handle

/-- Asked through the handle, the shared map answers what has been put into it. -/
structure Shows (h : Handle Cluster) (c : Cluster) (posted : List (Json × Json)) : Prop where
  get : ∀ key, (h.get Json.Decoder.json key).run.run c =
    some (.ok (posted.lookup (keyValue key)), c)
  containsKey : ∀ key, (h.containsKey key).run.run c =
    some (.ok (posted.lookup (keyValue key)).isSome, c)
  size : h.size.run.run c = some (.ok (posted.map (·.1)).toFinset.card, c)
  snapshot : ∃ listing, h.snapshot.run.run c = some (.ok listing, c) ∧ Ascending listing ∧
    ∀ text value, (text, value) ∈ listing ↔
      ∃ key, keyText key = text ∧ posted.lookup (keyValue key) = some value

variable {c : Cluster} {host : Host} {h : Handle Cluster} {b : Board}

theorem Attached.replaceBoard (attached : h.Attached host b) {after : Board}
    (continues : Host.Continues b after) : h.Attached (host.replaceBoard after) after where
  inProcess := attached.inProcess
  hosted := by rw [Host.get?_replaceBoard, if_pos (attached.name.symm.trans continues.1.symm)]
  schema := continues.2.trans attached.schema

theorem Attached.shows (attached : h.Attached host b) {posted : List (Json × Json)}
    (hold : b.entries.Hold posted) : h.Shows (c.withHost host) posted where
  get := by
    intro key
    rw [← hold.found]
    exact attached.run_unchanged (commits_get attached key)
  containsKey := by
    intro key
    rw [← hold.found]
    exact attached.run_unchanged (commits_containsKey attached key)
  size := by
    rw [← hold.size_eq]
    exact attached.run_unchanged (commits_size attached)
  snapshot := ⟨b.entries.snapshot, attached.run_unchanged (commits_snapshot attached),
    b.entries.ascending, hold.mem_entries_iff⟩

/-- Once an access has been carried out on the board, everybody is shown what it has left there. -/
theorem Attached.shows_later (attached : h.Attached host b) {α : Type}
    {access : Access Cluster α} {a : α} {after : Board}
    (commits : Commits c host access (some (.ok (a, after)))) (continues : Host.Continues b after)
    {posted : List (Json × Json)} (hold : after.entries.Hold posted) :
    ∃ later, access.run.run (c.withHost host) = some (.ok a, later) ∧
      ∀ {other : Handle Cluster}, other.name = h.name → (∃ b, other.Attached host b) →
        other.Shows later posted := by
  rw [Commits, Option.map_some, Host.commit] at commits
  refine ⟨_, commits, ?_⟩
  rintro other sameName ⟨_, otherAttached⟩
  have hosted := otherAttached.hosted
  rw [sameName, attached.hosted] at hosted
  cases hosted
  exact (otherAttached.replaceBoard continues).shows hold

end Handle

namespace RemoteGathering

/-- Whatever has been done to a board by the parties since it was made, its shared map answers every
one of them by what has been put there since it was last cleared. Keys are the same if they stand for
the same value, and keys that programs exchange stand for themselves. -/
theorem entries_by_value (c : Cluster) (host : Host) (parties : List Party)
    (requests : List Request) (name : String) (absent : host.boards.get? name = none)
    (spare : ∀ request ∈ requests, request.Spares name) :
    let ran := (start c host parties).run requests
    let posted := Transcript.postings (Transcript.ofRun name requests ran.1).operations
    let InUse (handle : Handle Cluster) :=
      ∃ d ∈ ran.2.directories, d.instance? name .inProcess = some handle
    (∀ handle, InUse handle → handle.Shows ran.2.cluster posted) ∧
    (∀ handle, InUse handle → ∀ key value, ∃ after,
      (handle.put key value).run.run ran.2.cluster = some (.ok (), after) ∧
        ∀ other, InUse other → other.Shows after ((keyValue key, value) :: posted) ∧
          ∀ otherKey, keyValue otherKey ≠ keyValue key →
            (other.get Json.Decoder.json otherKey).run.run after =
              some (.ok (posted.lookup (keyValue otherKey)), after)) ∧
    (∀ handle, InUse handle → ∃ after,
      handle.clear.run.run ran.2.cluster = some (.ok (), after) ∧
        ∀ other, InUse other → other.Shows after []) ∧
    (∀ key : Json, key.Valid → keyValue key = key) ∧
    ([.integer 1, .real (.ofNat 1), .string "1"] : List Json).Pairwise fun k l =>
      keyValue k ≠ keyValue l := by
  intro ran posted InUse
  rw [show ran.2.cluster = _ from (attached_run c host parties requests).2.1]
  have inUse : ∀ handle, InUse handle → handle.name = name ∧
      ∃ b, handle.Attached ((Gathering.start host parties).run requests).2.host b ∧
        b.entries.Hold posted := by
    rintro handle ⟨d, member, known⟩
    obtain ⟨named, schema, b, isAttached, undergone⟩ :=
      undergoes_of_instance? absent spare member known
    exact ⟨named, b, isAttached, undergone.hold⟩
  refine ⟨?_, ?_, ?_, fun key => keyValue_of_valid, ?_⟩
  · intro handle known
    obtain ⟨-, b, isAttached, hold⟩ := inUse handle known
    exact isAttached.shows hold
  · intro handle known key value
    obtain ⟨named, b, isAttached, hold⟩ := inUse handle known
    obtain ⟨later, put, shown⟩ := isAttached.shows_later (Handle.commits_put isAttached key value)
      ⟨rfl, rfl⟩ (hold.insert key value)
    refine ⟨later, put, ?_⟩
    intro other otherKnown
    obtain ⟨otherNamed, otherBoard, otherAttached, -⟩ := inUse other otherKnown
    have shows := shown (otherNamed.trans named.symm) ⟨otherBoard, otherAttached⟩
    refine ⟨shows, ?_⟩
    intro otherKey apart
    have got := shows.get otherKey
    rwa [List.lookup_cons, beq_eq_false_iff_ne.mpr apart] at got
  · intro handle known
    obtain ⟨named, b, isAttached, hold⟩ := inUse handle known
    obtain ⟨later, cleared, shown⟩ := isAttached.shows_later (Handle.commits_clear isAttached)
      ⟨rfl, rfl⟩ Entries.hold_empty
    refine ⟨later, cleared, ?_⟩
    intro other otherKnown
    obtain ⟨otherNamed, otherBoard, otherAttached, -⟩ := inUse other otherKnown
    exact shown (otherNamed.trans named.symm) ⟨otherBoard, otherAttached⟩
  · decide +kernel

/-- After the map has been cleared, null is put under 1, and other values under 1.0 and the text 1. -/
theorem entries_by_value_null :
    let schema : Schema := ⟨[], []⟩
    let c := Cluster.start ⟨"node", "task"⟩ true
    let requests : List Request :=
      [.attach 0 "B" schema, .attach 1 "B" schema, .operate 0 "B" (.put (.integer 2) (.bool true)),
        .operate 1 "B" .clear, .operate 0 "B" (.put (.integer 1) .null),
        .operate 1 "B" (.put (.real (.ofNat 1)) (.integer 7)),
        .operate 1 "B" (.put (.string "1") (.bool false))]
    let ran := (start c .empty [⟨"me", none⟩, ⟨"you", none⟩]).run requests
    let posted : List (Json × Json) :=
      [(.string "1", .bool false), (.real (.ofNat 1), .integer 7), (.integer 1, .null)]
    Host.empty.boards.get? "B" = none ∧ (∀ request ∈ requests, request.Spares "B") ∧
      (∃ d ∈ ran.2.directories, ∃ handle, d.instance? "B" .inProcess = some handle ∧
        handle.Shows ran.2.cluster posted) ∧
      posted.lookup (keyValue (.integer 1)) = some .null ∧
      posted.lookup (keyValue (.integer 2)) = none ∧ (posted.map (·.1)).toFinset.card = 3 := by
  intro schema c requests ran posted
  have absent : Host.empty.boards.get? "B" = none := rfl
  have spare : ∀ request ∈ requests, request.Spares "B" := by decide
  have law := (entries_by_value c .empty [⟨"me", none⟩, ⟨"you", none⟩] requests "B" absent spare).1
  have isRun : (start c .empty [⟨"me", none⟩, ⟨"you", none⟩]).run requests = ran := rfl
  have isPosted : Transcript.postings (Transcript.ofRun "B" requests ran.1).operations = posted := by
    decide +kernel
  rw [isRun, isPosted] at law
  have known : (ran.2.directories[1]?.bind fun d => d.instance? "B" .inProcess).isSome := by
    decide +kernel
  obtain ⟨handle, known⟩ := Option.isSome_iff_exists.mp known
  obtain ⟨d, second, known⟩ := Option.bind_eq_some_iff.mp known
  have member := List.mem_of_getElem? second
  exact ⟨absent, spare, ⟨d, member, handle, known, law handle ⟨d, member, known⟩⟩,
    by decide +kernel⟩

end RemoteGathering

end Coordination
