import Coordination.Proofs.Json.Number
import Coordination.Proofs.Statistics.Bookkeeping
import Coordination.Proofs.Statistics.LastSample

/-!
Names that are made up of a trim and a scope. Whatever the trim is, such a name reads back from its end:
the number first, then the kind of scope, then the trim. So nobody who asks for an instance without a name
of its own is ever given one that somebody else has asked for.
-/

namespace Coordination

namespace Scope

/-- The kind of scope, as a default name begins with it. -/
def tag : Scope → List Char
  | .thread _ => ['t', 'h', 'r', 'e', 'a', 'd']
  | .process => ['v', 'm']

def numberIn (processId : UInt32) : Scope → Nat
  | .thread number => number
  | .process => processId.toNat

/-- What a trim puts in front of a name. -/
def lead (trim : Option String) : List Char :=
  if trim.getD "" = "" then [] else (trim.getD "").toList ++ ['_']

theorem lead_injective {trim other : Option String} (same : lead trim = lead other) :
    trim.getD "" = other.getD "" := by
  unfold lead at same
  split at same <;> split at same
  · rename_i absent alsoAbsent
    rw [absent, alsoAbsent]
  · exact absurd same.symm (List.append_ne_nil_of_right_ne_nil _ (List.cons_ne_nil _ _))
  · exact absurd same (List.append_ne_nil_of_right_ne_nil _ (List.cons_ne_nil _ _))
  · exact String.toList_injective (List.append_cancel_right same)

section

variable (processId : UInt32) (scope : Scope) (trim : Option String)

theorem toList_defaultName :
    (scope.defaultName processId).toList =
      scope.tag ++ '_' :: Nat.toDigits 10 (scope.numberIn processId) := by
  have digits (n : Nat) : (toString n).toList = Nat.toDigits 10 n := String.toList_ofList
  cases scope with
  | thread number =>
      change ("thread_" ++ toString number).toList = _
      rw [String.toList_append, digits]
      rfl
  | process =>
      change ("vm_" ++ toString processId.toNat).toList = _
      rw [String.toList_append, digits]
      rfl

theorem toList_instanceName (name : Option String) :
    (scope.instanceName processId name trim).toList =
      lead trim ++ (name.getD (scope.defaultName processId)).toList := by
  unfold instanceName lead
  dsimp only
  split
  · rfl
  · rfl
  · rename_i given nonempty
    have present : given ≠ "" := nonempty
    rw [Option.getD_some, if_neg present, String.toList_append, String.toList_append]
    rfl

/-- The digits at the end of a default name are those of its number, since a mark stands before them. -/
theorem takeDigits_reverse_instanceName :
    Json.Reader.takeDigits (scope.instanceName processId none trim).toList.reverse =
      ((Nat.toDigits 10 (scope.numberIn processId)).reverse, '_' :: (lead trim ++ scope.tag).reverse) := by
  have digits : Json.AllDigits (Nat.toDigits 10 (scope.numberIn processId)).reverse :=
    fun c member => Json.allDigits_toDigits _ c (List.mem_reverse.mp member)
  rw [toList_instanceName, Option.getD_none, toList_defaultName, ← List.append_assoc,
    List.reverse_append, List.reverse_cons, List.append_assoc]
  refine Json.takeDigits_append digits fun c mark => ?_
  cases Option.mem_some_iff.mp mark
  rfl

end

variable {processId : UInt32} {scope other : Scope} {trim otherTrim : Option String}

theorem tag_eq_of_append {front otherFront : List Char}
    (same : front ++ scope.tag = otherFront ++ other.tag) : scope.tag = other.tag := by
  have last := congrArg List.getLast? same
  cases scope <;> cases other <;> simp [tag] at last ⊢

theorem eq_of_tag_eq (tags : scope.tag = other.tag)
    (numbers : scope.numberIn processId = other.numberIn processId) : scope = other := by
  cases scope with
  | thread number =>
      cases other with
      | thread otherNumber => exact congrArg thread numbers
      | process => simp [tag] at tags
  | process =>
      cases other with
      | thread otherNumber => simp [tag] at tags
      | process => rfl

theorem instanceName_eq_iff :
    scope.instanceName processId none trim = other.instanceName processId none otherTrim ↔
      scope = other ∧ trim.getD "" = otherTrim.getD "" := by
  constructor
  · intro same
    have read := congrArg (fun name => Json.Reader.takeDigits name.toList.reverse) same
    simp only [takeDigits_reverse_instanceName, Prod.mk.injEq, List.cons.injEq, List.reverse_inj,
      true_and] at read
    obtain ⟨digits, front⟩ := read
    have tags := tag_eq_of_append front
    rw [tags] at front
    exact ⟨eq_of_tag_eq tags (Json.toDigits_injective digits),
      lead_injective (List.append_cancel_right front)⟩
  · rintro ⟨rfl, same⟩
    have front : lead trim = lead otherTrim := by rw [lead, lead, same]
    exact String.toList_injective (by rw [toList_instanceName, toList_instanceName, front])

end Scope

/-! One call after another. -/

namespace Registry

/-- The instance of this number, live or closed, is one of this key. -/
def HasKey (r : Registry) (number : Nat) (key : InstanceKey) : Prop :=
  ∃ title, r.titles[number]? = some title ∧ title.key = key

variable {r next : Registry} {number otherNumber : Nat} {key otherKey : InstanceKey}
  {typeName otherType : String} {scope other : Scope} {name trim otherTrim : Option String}

theorem HasKey.mono (has : r.HasKey number key) (grown : r.titles <+: next.titles) :
    next.HasKey number key := by
  obtain ⟨title, there, named⟩ := has
  obtain ⟨inside, rfl⟩ := List.getElem?_eq_some_iff.mp there
  exact ⟨_, List.prefix_iff_getElem?.mp grown number inside, named⟩

theorem HasKey.unique (has : r.HasKey number key) (alsoHas : r.HasKey number otherKey) :
    key = otherKey := by
  obtain ⟨title, there, rfl⟩ := has
  obtain ⟨alsoTitle, alsoThere, rfl⟩ := alsoHas
  cases there.symm.trans alsoThere
  rfl

theorem Housed.hasKey (housed : Housed r) (held : r.live.get? key = some number) :
    r.HasKey number key := by
  obtain ⟨i, found, named⟩ := housed key number held
  exact ⟨i.title, titled found, named⟩

theorem askedKey_of_processId (same : next.archive.processId = r.archive.processId)
    (typeName : String) (scope : Scope) (name trim : Option String) :
    next.askedKey typeName scope name trim = r.askedKey typeName scope name trim := by
  rw [askedKey, askedKey, same]

theorem askedKey_eq_iff :
    r.askedKey typeName scope none trim = r.askedKey otherType other none otherTrim ↔
      typeName = otherType ∧ scope = other ∧ trim.getD "" = otherTrim.getD "" := by
  rw [askedKey, askedKey, InstanceKey.mk.injEq, Scope.instanceName_eq_iff]

section

variable (got : r.getInstance typeName scope name trim = .ok (number, next)) (later : List Event)

include got

theorem askedKey_after_got (otherType : String) (other : Scope) (otherName otherTrim : Option String) :
    (next.after later).askedKey otherType other otherName otherTrim =
      r.askedKey otherType other otherName otherTrim := by
  refine askedKey_of_processId ?_ ..
  rw [(live_of_getInstance got).2, ← after_append, processId_after]

theorem Sound.after_got (sound : Sound r) : Sound (next.after later) := by
  rw [(live_of_getInstance got).2, ← after_append]
  exact (sound.after _).1

theorem Sound.hasKey_after (sound : Sound r) :
    (next.after later).HasKey number (r.askedKey typeName scope name trim) := by
  have soundNext : Sound next := sound.after_got got []
  exact (soundNext.housed.hasKey (live_of_getInstance got).1).mono (soundNext.after later).2.titles

end

/-- Who asks by no name gets what somebody got before just if both have asked for the same, and nobody
has closed it since. -/
theorem Sound.number_eq_iff (sound : Sound r)
    (got : r.getInstance typeName scope none trim = .ok (number, next)) {later : List Event}
    {last : Registry}
    (gotOther : (next.after later).getInstance otherType other none otherTrim =
      .ok (otherNumber, last)) :
    number = otherNumber ↔
      (typeName = otherType ∧ scope = other ∧ trim.getD "" = otherTrim.getD "") ∧
        Unclosed next (r.askedKey typeName scope none trim) later := by
  rw [← askedKey_eq_iff (r := r)]
  constructor
  · rintro rfl
    have has := sound.hasKey_after got (later ++ [.obtain otherType other none otherTrim])
    rw [after_append, ← (live_of_getInstance gotOther).2] at has
    have alsoHas := (sound.after_got got later).hasKey_after gotOther []
    rw [askedKey_after_got got] at alsoHas
    have same := has.unique alsoHas
    refine ⟨same, not_not.mp fun closed => ?_⟩
    -- If it had been closed, a new one would have been made.
    obtain rfl := (askedKey_eq_iff.mp same).1
    obtain ⟨remade, _, gotAnew, differs⟩ := (sound.getInstance_after got later same.symm).2 closed
    cases gotOther.symm.trans gotAnew
    exact differs rfl
  · rintro ⟨same, unclosed⟩
    obtain rfl := (askedKey_eq_iff.mp same).1
    cases gotOther.symm.trans ((sound.getInstance_after got later same.symm).1 unclosed)
    rfl

end Registry

/-! Many threads at once. -/

namespace Threads

open Registry (HasKey)

def Event.request? : Event → Option Request
  | .call request => some request
  | _ => none

/-- What the threads were called for, in the order of their calls. -/
def requests (events : List Event) : List Request := events.filterMap Event.request?

def Stage.given? : Stage → Option Nat
  | .done (.obtained (.ok number)) => some number
  | _ => none

/-- The thread was called with this request, and `number` is what it has been given. -/
def Gave (r : Registry) (events : List Event) (thread : Nat) (request : Request) (number : Nat) :
    Prop :=
  (requests events)[thread]? = some request ∧
    ((start r).run events).stages[thread]?.bind Stage.given? = some number

instance (r : Registry) (events : List Event) (thread : Nat) (request : Request) (number : Nat) :
    Decidable (Gave r events thread request number) := inferInstanceAs (Decidable (_ ∧ _))

/-- What a thread is at that was called for the instance of this key. -/
def Stage.LeadsTo (r : Registry) (key : InstanceKey) : Stage → Prop
  | .finding typeName scope name trim => r.askedKey typeName scope name trim = key
  | .looking _ sought _ | .making _ sought _ => sought = key
  | .done (.obtained (.ok number)) => r.HasKey number key
  | .done (.obtained (.error _)) => True
  | _ => False

variable {r : Registry} {s next : Threads} {event : Event} {events : List Event} {thread number : Nat}
  {stage : Stage} {key : InstanceKey} {typeName : String} {scope : Scope} {name trim : Option String}

theorem Move.processId (move : Move s event next) :
    next.registry.archive.processId = s.registry.archive.processId := by
  cases move <;> rfl

theorem Stage.LeadsTo.mono {after : Registry} (leads : stage.LeadsTo r key)
    (grown : r.titles <+: after.titles) (same : after.archive.processId = r.archive.processId) :
    stage.LeadsTo after key := by
  cases stage with
  | finding typeName scope name trim => exact (Registry.askedKey_of_processId same ..).trans leads
  | done answer =>
      cases answer with
      | obtained result =>
          cases result with
          | error fault => trivial
          | ok number => exact HasKey.mono leads grown
      | sampled | closed => exact leads
  | closing | entering | listing | taking | leaving | looking | making => exact leads

/-! The steps of a thread that was called for an instance. -/

theorem leadsTo_find (there : s.stages[thread]? = some (.finding typeName scope name trim)) :
    ∃ stage, (s.find thread typeName scope name trim).stages[thread]? = some stage ∧
      stage.LeadsTo (s.find thread typeName scope name trim).registry
        (s.registry.askedKey typeName scope name trim) := by
  rw [Threads.find]
  cases s.registry.type typeName with
  | error fault => exact ⟨_, stage_goTo there _, trivial⟩
  | ok t => exact ⟨_, stage_goTo there _, rfl⟩

theorem leadsTo_look {t : StatisticsType} (orderly : Orderly r s)
    (there : s.stages[thread]? = some (.looking t key scope)) :
    ∃ stage, (s.look thread t key scope).stages[thread]? = some stage ∧
      stage.LeadsTo (s.look thread t key scope).registry key := by
  rw [Threads.look]
  cases held : s.registry.live.get? key with
  | none => exact ⟨_, stage_goTo there _, rfl⟩
  | some number => exact ⟨_, stage_goTo there _, orderly.housed.hasKey held⟩

theorem leadsTo_make {t : StatisticsType} (orderly : Orderly r s)
    (there : s.stages[thread]? = some (.making t key scope)) :
    ∃ stage, (s.make thread t key scope).stages[thread]? = some stage ∧
      stage.LeadsTo (s.make thread t key scope).registry key := by
  rw [Threads.make]
  cases held : s.registry.live.get? key with
  | none =>
      have named : t.name = key.typeName := orderly.stages _ _ there
      refine ⟨_, stage_goTo there _, ⟨t, key.name⟩, ?_, by rw [Title.key, named]⟩
      change (addInstance s.registry t key scope).titles[s.registry.instances.length]? = _
      have place : s.registry.titles.length = s.registry.instances.length := List.length_map _
      rw [Registry.titles_addInstance, ← place]
      exact List.getElem?_concat_length
  | some number => exact ⟨_, stage_goTo there _, orderly.housed.hasKey held⟩

theorem Stage.LeadsTo.step (leads : stage.LeadsTo s.registry key) (orderly : Orderly r s)
    (there : s.stages[thread]? = some stage) (event : Event) :
    ∃ stage, (s.step event).stages[thread]? = some stage ∧
      stage.LeadsTo (s.step event).registry key := by
  by_cases own : ∃ now, event = .proceed thread now
  · obtain ⟨now, rfl⟩ := own
    rw [step_proceed there]
    cases stage with
    | finding typeName scope name trim =>
        cases leads
        exact leadsTo_find there
    | looking t sought scope =>
        cases leads
        exact leadsTo_look orderly there
    | making t sought scope =>
        cases leads
        exact leadsTo_make orderly there
    | done answer => exact ⟨_, there, leads⟩
    | closing | entering | listing | taking | leaving => exact leads.elim
  · have moves := move s event
    refine ⟨stage, moves.stage_of_elsewhere there fun now same => own ⟨now, same⟩, ?_⟩
    exact leads.mono moves.titles moves.processId

/-! Whole runs. -/

theorem requests_concat (events : List Event) (event : Event) :
    requests (events ++ [event]) = requests events ++ event.request?.toList := by
  have last : requests [event] = event.request?.toList := by cases event <;> rfl
  rw [← last]
  exact List.filterMap_append

theorem Move.length_stages (move : Move s event next) (quiet : event.request? = none) :
    next.stages.length = s.stages.length := by
  cases move with
  | idle | updated found done => rfl
  | called => cases quiet
  | removed there found live | refused there | entered there free | listed there | took there
  | filed there | left there | told there asks | found there known | missed there
  | made there absent => exact List.length_set

theorem length_stages_run (r : Registry) (events : List Event) :
    ((start r).run events).stages.length = (requests events).length := by
  induction events using List.reverseRecOn with
  | nil => rfl
  | append_singleton events event ih =>
      rw [run_concat, requests_concat, List.length_append, ← ih]
      cases event with
      | call request => exact List.length_append
      | update number u => exact (move _ (.update number u)).length_stages rfl
      | proceed thread now => exact (move _ (.proceed thread now)).length_stages rfl

theorem processId_run (r : Registry) (events : List Event) :
    ((start r).run events).registry.archive.processId = r.archive.processId := by
  induction events using List.reverseRecOn with
  | nil => rfl
  | append_singleton events event ih =>
      rw [run_concat, (move _ event).processId, ih]

theorem titles_run (r : Registry) (events : List Event) :
    r.titles <+: ((start r).run events).registry.titles := by
  induction events using List.reverseRecOn with
  | nil => exact List.prefix_rfl
  | append_singleton events event ih =>
      rw [run_concat]
      exact ih.trans (move _ event).titles

theorem leadsTo_run (sound : Registry.Sound r) (events : List Event)
    (asked : (requests events)[thread]? = some (.obtain typeName scope name trim)) :
    ∃ stage, ((start r).run events).stages[thread]? = some stage ∧
      stage.LeadsTo ((start r).run events).registry (r.askedKey typeName scope name trim) := by
  induction events using List.reverseRecOn with
  | nil => cases asked
  | append_singleton events event ih =>
      rw [requests_concat] at asked
      rw [run_concat]
      by_cases earlier : thread < (requests events).length
      · rw [List.getElem?_append_left earlier] at asked
        obtain ⟨stage, there, leads⟩ := ih asked
        exact leads.step (orderly_run sound events) there event
      · -- It is by this event that the thread is called.
        have last := Nat.le_of_not_lt earlier
        rw [List.getElem?_append_right last] at asked
        cases event with
        | call request =>
            obtain ⟨place, rfl⟩ : thread = ((start r).run events).stages.length ∧
                request = .obtain typeName scope name trim := by
              rw [Event.request?, Option.toList_some, List.getElem?_singleton] at asked
              split at asked
              · rw [length_stages_run]
                exact ⟨by omega, Option.some.inj asked⟩
              · cases asked
            refine ⟨_, place ▸ List.getElem?_concat_length, ?_⟩
            exact Registry.askedKey_of_processId (processId_run r events) ..
        | update | proceed => cases asked

theorem Gave.hasKey (sound : Registry.Sound r)
    (gave : Gave r events thread (.obtain typeName scope name trim) number) :
    ((start r).run events).registry.HasKey number (r.askedKey typeName scope name trim) := by
  obtain ⟨asked, given⟩ := gave
  obtain ⟨stage, there, leads⟩ := leadsTo_run sound events asked
  rw [there, Option.bind_some] at given
  unfold Stage.given? at given
  split at given
  · cases given
    exact leads
  · cases given

end Threads

namespace Registry

open Threads (Gave)

/-- Scopes and trims are told apart by the names that they make up, an empty trim counting as none. So
of those who ask for instances by no name, each after the other or many at once, no two are ever given
the same one unless their type, their scope and their trim are the same. -/
theorem unnamed_told_apart (processId : UInt32) (host : String) (history : List Event) :
    let r := (empty processId host).after history
    (∀ scope trim other otherTrim,
      Scope.instanceName processId scope none trim =
          Scope.instanceName processId other none otherTrim ↔
        scope = other ∧ trim.getD "" = otherTrim.getD "") ∧
    (∀ typeName ∈ names r.archive.types, ∀ scope trim, ∃ number next,
      r.getInstance typeName scope none trim = .ok (number, next) ∧
        ∀ later otherType other otherTrim,
          (otherType ∈ names (next.after later).archive.types → ∃ otherNumber last,
            (next.after later).getInstance otherType other none otherTrim = .ok (otherNumber, last) ∧
              (number = otherNumber ↔
                (typeName = otherType ∧ scope = other ∧ trim.getD "" = otherTrim.getD "") ∧
                  Unclosed next (r.askedKey typeName scope none trim) later)) ∧
          ∀ events thread,
            Gave (next.after later) events thread (.obtain otherType other none otherTrim) number →
              typeName = otherType ∧ scope = other ∧ trim.getD "" = otherTrim.getD "") ∧
    ∀ events first second number typeName scope trim otherType other otherTrim,
      Gave r events first (.obtain typeName scope none trim) number →
      Gave r events second (.obtain otherType other none otherTrim) number →
        typeName = otherType ∧ scope = other ∧ trim.getD "" = otherTrim.getD "" := by
  intro r
  have sound : Sound r := ((sound_empty processId host).after history).1
  refine ⟨fun scope trim other otherTrim => Scope.instanceName_eq_iff, ?_, ?_⟩
  · intro typeName known scope trim
    obtain ⟨number, next, got⟩ := sound.getInstance_of_known known
    refine ⟨number, next, got, fun later otherType other otherTrim => ⟨?_, ?_⟩⟩
    · intro otherKnown
      obtain ⟨otherNumber, last, gotOther⟩ := (sound.after_got got later).getInstance_of_known otherKnown
      exact ⟨otherNumber, last, gotOther, sound.number_eq_iff got gotOther⟩
    · intro events thread gave
      have has := (sound.hasKey_after got later).mono (Threads.titles_run _ events)
      have alsoHas := gave.hasKey (sound.after_got got later)
      rw [askedKey_after_got got] at alsoHas
      exact askedKey_eq_iff.mp (has.unique alsoHas)
  · intro events first second number typeName scope trim otherType other otherTrim gave alsoGave
    exact askedKey_eq_iff.mp ((gave.hasKey sound).unique (alsoGave.hasKey sound))

/-- Three threads look for their instances before any of them is made, and one asks when the first of
these has been there for long. The trim of the third is the whole name that the others ask for. -/
theorem unnamed_told_apart_at_once :
    let t : StatisticsType := ⟨"Cache", [⟨"puts", "operations", true, .longCounter⟩]⟩
    let r := (empty 7 "node").after [.register t]
    let together : List Threads.Event :=
      [.call (.obtain "Cache" (.thread 7) none (some "")), .call (.obtain "Cache" (.thread 7) none none),
        .call (.obtain "Cache" .process none (some "thread_7")), .proceed 0 1, .proceed 1 1,
        .proceed 2 1, .proceed 2 2, .proceed 1 2, .proceed 0 2, .proceed 1 3, .proceed 0 3,
        .proceed 2 3]
    let alone : List Threads.Event :=
      [.call (.obtain "Cache" (.thread 7) none (some "")), .proceed 0 1, .proceed 0 2]
    Gave r together 0 (.obtain "Cache" (.thread 7) none (some "")) 0 ∧
      Gave r together 1 (.obtain "Cache" (.thread 7) none none) 0 ∧
      (some "").getD "" = (none : Option String).getD "" ∧
      Gave r together 2 (.obtain "Cache" .process none (some "thread_7")) 1 ∧
      "Cache" ∈ names r.archive.types ∧
      ∃ number next otherNumber last,
        r.getInstance "Cache" (.thread 7) none none = .ok (number, next) ∧
        Gave next alone 0 (.obtain "Cache" (.thread 7) none (some "")) number ∧
        (none : Option String).getD "" = (some "").getD "" ∧
        next.getInstance "Cache" .process none (some "thread_7") = .ok (otherNumber, last) ∧
        number ≠ otherNumber := by
  intro t r together alone
  have known : "Cache" ∈ names r.archive.types := by decide +kernel
  have first : Gave r together 0 (.obtain "Cache" (.thread 7) none (some "")) 0 := by decide +kernel
  have second : Gave r together 1 (.obtain "Cache" (.thread 7) none none) 0 := by decide +kernel
  obtain ⟨-, inTurn, atOnce⟩ := unnamed_told_apart 7 "node" [.register t]
  obtain ⟨number, next, got, others⟩ := inTurn "Cache" known (.thread 7) none
  have counted : (r.getInstance "Cache" (.thread 7) none none).toOption.map (·.1) = some 0 := by
    decide +kernel
  have stepped := (live_of_getInstance got).2
  rw [got] at counted
  cases counted
  have third : Gave next alone 0 (.obtain "Cache" (.thread 7) none (some "")) 0 := by
    rw [stepped]
    decide +kernel
  have stillKnown : "Cache" ∈ names next.archive.types := by
    rw [stepped]
    decide +kernel
  obtain ⟨otherNumber, last, gotOther, same⟩ :=
    (others [] "Cache" .process (some "thread_7")).1 stillKnown
  have told := (others [] "Cache" (.thread 7) (some "")).2 alone 0 third
  refine ⟨first, second, (atOnce together 0 1 0 _ _ _ _ _ _ first second).2.2, by decide +kernel, known,
    0, next, otherNumber, last, got, third, told.2.2, gotOther, fun equal => ?_⟩
  cases (same.mp equal).1.2.1

end Registry

end Coordination
