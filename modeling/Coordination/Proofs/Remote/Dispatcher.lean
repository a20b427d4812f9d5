import Coordination.Board.Host
import Coordination.Proofs.Table
import Coordination.Remote.Channel
import Mathlib.Data.List.Induction

/-!
Whom a call is for after any changes to what is registered. What stands at a place is what was
registered there last and has not been taken away since; a class that stands goes before the functions
under its name, and a call that is for nobody is refused before anybody is run.
-/

namespace Coordination

theorem Channel.dispatchWithin_of_answer {σ : Type} [Servant σ] {d after : Dispatcher σ}
    {target : Target} {method : String} {args : List Json} {outcome : Except Refusal Json}
    {millis : Nat}
    (dispatched : d.dispatch target method args = some ⟨.answered outcome, after, millis⟩)
    {timeout : Option UInt64} (inTime : ∀ limit, timeout = some limit → millis < limit.toNat) :
    dispatchWithin timeout target method args d = some (outcomeOf outcome, after) := by
  cases timeout with
  | none => simp only [dispatchWithin, dispatched]
  | some limit => simp only [dispatchWithin, dispatched, if_pos (inTime limit rfl)]

namespace Dispatcher

variable {σ : Type} {changes : List (Change σ)}

/-! What stands at a place. -/

/-- Whether a change decides what stands at a place from then on. -/
def Change.Decides (place : Place) : Change σ → Prop
  | .register there _ => there = place
  | .unregister id => .object id = place

def Stands (changes : List (Change σ)) (place : Place) (servant : σ) : Prop :=
  ∃ earlier later, changes = earlier ++ .register place servant :: later ∧
    ∀ change ∈ later, ¬ change.Decides place

def HasFunctions (changes : List (Change σ)) (className : String) : Prop :=
  ∃ method servant, .register (.function className method) servant ∈ changes

theorem not_stands_nil (place : Place) (servant : σ) : ¬ Stands [] place servant := by
  rintro ⟨earlier, later, split, -⟩
  exact List.append_ne_nil_of_right_ne_nil earlier (List.cons_ne_nil _ _) split.symm

theorem stands_concat {change : Change σ} {place : Place} {servant : σ} :
    Stands (changes ++ [change]) place servant ↔
      change = .register place servant ∨ ¬ change.Decides place ∧ Stands changes place servant := by
  constructor
  · rintro ⟨earlier, later, split, undecided⟩
    rcases List.eq_nil_or_concat later with rfl | ⟨later, last, rfl⟩
    · exact .inl (List.cons.inj (List.append_inj' split rfl).2).1
    · rw [List.concat_eq_append, ← List.cons_append, ← List.append_assoc] at split
      rw [List.concat_eq_append] at undecided
      obtain ⟨before, same⟩ := List.append_inj' split rfl
      obtain ⟨rfl, -⟩ := List.cons.inj same
      obtain ⟨undecidedLater, undecidedLast⟩ := List.forall_mem_append.mp undecided
      exact .inr ⟨undecidedLast change List.mem_cons_self, earlier, later, before, undecidedLater⟩
  · rintro (rfl | ⟨undecided, earlier, later, rfl, undecidedLater⟩)
    · exact ⟨changes, [], rfl, List.forall_mem_nil _⟩
    · refine ⟨earlier, later ++ [change], by rw [List.append_assoc, List.cons_append], ?_⟩
      exact List.forall_mem_append.mpr ⟨undecidedLater, List.forall_mem_singleton.mpr undecided⟩

/-! Look-ups. -/

def servantAt? (d : Dispatcher σ) : Place → Option σ
  | .ofClass name => d.classes.get? name
  | .function className method => (d.functions.get? className).bind (·.get? method)
  | .object id => d.objects.get? id

theorem get?_registerFunction (d : Dispatcher σ) (className method other : String) (servant : σ) :
    (d.registerFunction className method servant).functions.get? other =
      if other = className then
        some (((d.functions.get? className).getD .empty).insert method servant)
      else d.functions.get? other :=
  Table.get?_modify d.functions className other .empty _

theorem servantAt?_registerFunction (d : Dispatcher σ) (className method : String) (servant : σ)
    (otherClass otherMethod : String) :
    (d.registerFunction className method servant).servantAt? (.function otherClass otherMethod) =
      if otherClass = className ∧ otherMethod = method then some servant
      else d.servantAt? (.function otherClass otherMethod) := by
  rw [servantAt?, get?_registerFunction]
  by_cases sameClass : otherClass = className
  · subst sameClass
    rw [if_pos rfl, Option.bind_some, Table.get?_insert]
    by_cases sameMethod : otherMethod = method
    · rw [if_pos sameMethod, if_pos ⟨rfl, sameMethod⟩]
    · rw [if_neg sameMethod, if_neg (sameMethod ·.2), servantAt?]
      cases d.functions.get? otherClass <;> rfl
  · rw [if_neg sameClass, if_neg (sameClass ·.1), servantAt?]

theorem servantAt?_replace (d : Dispatcher σ) (servant : σ) (place other : Place) :
    (d.replace servant place).servantAt? other =
      if place = other then some servant else d.servantAt? other := by
  cases place with
  | ofClass name =>
      cases other with
      | ofClass => simp [replace, registerClass, servantAt?, Table.get?_insert, eq_comm]
      | function | object => rfl
  | object id =>
      cases other with
      | object => simp [replace, registerObject, servantAt?, Table.get?_insert, eq_comm]
      | ofClass | function => rfl
  | function className method =>
      cases other with
      | ofClass | object => rfl
      | function otherClass otherMethod =>
          rw [replace, servantAt?_registerFunction]
          simp only [Place.function.injEq, eq_comm]

theorem servantAt?_unregisterObject (d : Dispatcher σ) (id : String) (place : Place) :
    (d.unregisterObject id).2.servantAt? place =
      if .object id = place then none else d.servantAt? place := by
  cases place with
  | object => simp [unregisterObject, servantAt?, Table.get?_erase, eq_comm]
  | ofClass | function => rfl

theorem servantAt?_apply (d : Dispatcher σ) (change : Change σ) (place : Place) (servant : σ) :
    (d.apply change).servantAt? place = some servant ↔
      change = .register place servant ∨
        ¬ change.Decides place ∧ d.servantAt? place = some servant := by
  cases change with
  | register there other =>
      rw [apply, servantAt?_replace, Change.register.injEq, Change.Decides]
      split <;> rename_i same <;> simp [same]
  | unregister id =>
      rw [apply, servantAt?_unregisterObject, Change.Decides]
      split <;> rename_i same <;> simp [same]

theorem after_concat (changes : List (Change σ)) (change : Change σ) :
    after (changes ++ [change]) = (after changes).apply change :=
  List.foldl_concat ..

theorem servantAt?_after {place : Place} {servant : σ} :
    (after changes).servantAt? place = some servant ↔ Stands changes place servant := by
  induction changes using List.reverseRecOn with
  | nil =>
      have vacant : (after ([] : List (Change σ))).servantAt? place = none := by cases place <;> rfl
      simp [vacant, not_stands_nil]
  | append_singleton changes change induction =>
      rw [after_concat, servantAt?_apply, stands_concat, induction]

theorem get?_functions_apply (d : Dispatcher σ) (change : Change σ) (className : String) :
    ((d.apply change).functions.get? className).isSome = true ↔
      (∃ method servant, change = .register (.function className method) servant) ∨
        (d.functions.get? className).isSome = true := by
  cases change with
  | unregister id => simp [apply, unregisterObject]
  | register place servant =>
      cases place with
      | ofClass | object => simp [apply, replace, registerClass, registerObject]
      | function other method =>
          rw [apply, replace, get?_registerFunction]
          by_cases same : className = other
          · simp [same]
          · simp [same, Ne.symm same]

theorem get?_functions_after {className : String} :
    ((after changes).functions.get? className).isSome = true ↔ HasFunctions changes className := by
  induction changes using List.reverseRecOn with
  | nil => simp [after, empty, HasFunctions]
  | append_singleton changes change induction =>
      rw [after_concat, get?_functions_apply, induction]
      constructor
      · rintro (⟨method, servant, rfl⟩ | ⟨method, servant, member⟩)
        · exact ⟨method, servant, List.mem_concat_self⟩
        · exact ⟨method, servant, List.mem_append_left _ member⟩
      · rintro ⟨method, servant, member⟩
        rcases List.mem_append.mp member with earlier | last
        · exact .inr ⟨method, servant, earlier⟩
        · exact .inl ⟨method, servant, (List.mem_singleton.mp last).symm⟩

theorem functions_after_eq_none {className : String} :
    (after changes).functions.get? className = none ↔ ¬ HasFunctions changes className := by
  rw [← get?_functions_after, Option.isSome_iff_ne_none, not_not]

theorem Stands.unique {place : Place} {servant other : σ} (stands : Stands changes place servant)
    (alsoStands : Stands changes place other) : servant = other :=
  Option.some.inj ((servantAt?_after.mpr stands).symm.trans (servantAt?_after.mpr alsoStands))

def Vacant (changes : List (Change σ)) (place : Place) : Prop :=
  ∀ servant, ¬ Stands changes place servant

theorem vacant_iff {place : Place} :
    Vacant changes place ↔ (after changes).servantAt? place = none := by
  simp only [Vacant, ← servantAt?_after, Option.eq_none_iff_forall_ne_some, ne_eq]

/-! Whom a call finds. -/

inductive Finds (changes : List (Change σ)) :
    Target → (method : String) → Except Refusal (Place × σ) → Prop
  | object {id method : String} {servant : σ} (stands : Stands changes (.object id) servant) :
      Finds changes (.object id) method (.ok (.object id, servant))
  | noObject {id method : String} (vacant : Vacant changes (.object id)) :
      Finds changes (.object id) method
        (.error ⟨"UnknownTarget", s!"no object registered as '{id}'", none⟩)
  | ofClass {name method : String} {servant : σ} (stands : Stands changes (.ofClass name) servant) :
      Finds changes (.ofClass name) method (.ok (.ofClass name, servant))
  | function {name method : String} {servant : σ} (vacant : Vacant changes (.ofClass name))
      (stands : Stands changes (.function name method) servant) :
      Finds changes (.ofClass name) method (.ok (.function name method, servant))
  | noMethod {name method : String} (vacant : Vacant changes (.ofClass name))
      (noFunction : Vacant changes (.function name method)) (others : HasFunctions changes name) :
      Finds changes (.ofClass name) method
        (.error ⟨"UnknownMethod", s!"{name} has no method '{method}'", none⟩)
  | noClass {name method : String} (vacant : Vacant changes (.ofClass name))
      (noFunctions : ¬ HasFunctions changes name) :
      Finds changes (.ofClass name) method
        (.error ⟨"UnknownTarget", s!"no class registered as '{name}'", none⟩)

variable {target : Target} {method : String}

theorem finds_resolve (changes : List (Change σ)) (target : Target) (method : String) :
    Finds changes target method ((after changes).resolve target method) := by
  cases target with
  | object id =>
      rw [resolve]
      cases found : (after changes).objects.get? id with
      | none => exact .noObject (vacant_iff.mpr found)
      | some servant => exact .object (servantAt?_after.mp found)
  | ofClass name =>
      rw [resolve]
      cases found : (after changes).classes.get? name with
      | some servant => exact .ofClass (servantAt?_after.mp found)
      | none =>
          have vacant : Vacant changes (.ofClass name) := vacant_iff.mpr found
          cases functions : (after changes).functions.get? name with
          | none => exact .noClass vacant (functions_after_eq_none.mp functions)
          | some methods =>
              have looked : (after changes).servantAt? (.function name method) = methods.get? method := by
                rw [servantAt?, functions, Option.bind_some]
              dsimp only
              cases one : methods.get? method with
              | some servant => exact .function vacant (servantAt?_after.mp (looked.trans one))
              | none =>
                  refine .noMethod vacant (vacant_iff.mpr (looked.trans one)) ?_
                  rw [← get?_functions_after, functions, Option.isSome_some]

theorem Finds.resolve {found : Except Refusal (Place × σ)}
    (finds : Finds changes target method found) :
    (after changes).resolve target method = found := by
  cases finds with
  | @object id _ servant stands =>
      have there : (after changes).objects.get? id = some servant := servantAt?_after.mpr stands
      rw [Dispatcher.resolve, there]
  | @noObject id _ vacant =>
      have nobody : (after changes).objects.get? id = none := vacant_iff.mp vacant
      rw [Dispatcher.resolve, nobody]
      rfl
  | @ofClass name _ servant stands =>
      have there : (after changes).classes.get? name = some servant := servantAt?_after.mpr stands
      rw [Dispatcher.resolve, there]
  | @function name method servant vacant stands =>
      have nobody : (after changes).classes.get? name = none := vacant_iff.mp vacant
      have there := servantAt?_after.mpr stands
      obtain ⟨methods, functions, one⟩ := Option.bind_eq_some_iff.mp there
      simp only [Dispatcher.resolve, nobody, functions, one]
  | @noMethod name method vacant noFunction others =>
      have nobody : (after changes).classes.get? name = none := vacant_iff.mp vacant
      obtain ⟨methods, functions⟩ := Option.isSome_iff_exists.mp (get?_functions_after.mpr others)
      have noOne : methods.get? method = none := by
        have looked := vacant_iff.mp noFunction
        rwa [servantAt?, functions, Option.bind_some] at looked
      simp only [Dispatcher.resolve, nobody, functions, noOne]
      rfl
  | @noClass name _ vacant noFunctions =>
      have nobody : (after changes).classes.get? name = none := vacant_iff.mp vacant
      have functions := functions_after_eq_none.mpr noFunctions
      simp only [Dispatcher.resolve, nobody, functions]
      rfl

theorem finds_iff {found : Except Refusal (Place × σ)} :
    Finds changes target method found ↔ found = (after changes).resolve target method :=
  ⟨fun finds => finds.resolve.symm, fun same => same ▸ finds_resolve changes target method⟩

/-! Classes and objects do not meet. -/

/-- Whether calls of this kind can be for a place. -/
def Place.serves : Target → Place → Bool
  | .ofClass _, .ofClass _ | .ofClass _, .function _ _ | .object _, .object _ => true
  | .ofClass _, .object _ | .object _, .ofClass _ | .object _, .function _ _ => false

def Change.regards (target : Target) : Change σ → Bool
  | .register place _ => place.serves target
  | .unregister id => (Place.object id).serves target

theorem Change.regards_of_decides {place : Place} (serves : place.serves target = true)
    (change : Change σ) (decides : change.Decides place) : change.regards target = true := by
  cases change with
  | register | unregister =>
      cases decides
      exact serves

theorem stands_filter {keep : Change σ → Bool} {place : Place} {servant : σ}
    (kept : ∀ change : Change σ, change.Decides place → keep change = true) :
    Stands (changes.filter keep) place servant ↔ Stands changes place servant := by
  induction changes using List.reverseRecOn with
  | nil => rfl
  | append_singleton changes change induction =>
      rw [List.filter_append, List.filter_singleton]
      cases chosen : keep change with
      | true => rw [cond_true, stands_concat, stands_concat, induction]
      | false =>
          have undecided : ¬ change.Decides place := by
            intro decides
            rw [kept change decides] at chosen
            cases chosen
          have other : change ≠ .register place servant := by
            rintro rfl
            exact undecided rfl
          rw [cond_false, List.append_nil, stands_concat, induction]
          simp only [other, undecided, not_false_eq_true, true_and, false_or]

theorem finds_filter_regards {found : Except Refusal (Place × σ)}
    (finds : Finds changes target method found) :
    Finds (changes.filter (·.regards target)) target method found := by
  have stands {place : Place} (serves : place.serves target = true) {servant : σ} :
      Stands (changes.filter (·.regards target)) place servant ↔ Stands changes place servant :=
    stands_filter (Change.regards_of_decides serves)
  have vacant {place : Place} (serves : place.serves target = true) :
      Vacant (changes.filter (·.regards target)) place ↔ Vacant changes place :=
    forall_congr' fun _ => not_congr (stands serves)
  have functions {name : String} (serves : ∀ method, (Place.function name method).serves target = true) :
      HasFunctions (changes.filter (·.regards target)) name ↔ HasFunctions changes name := by
    refine exists₂_congr fun method servant => ?_
    rw [List.mem_filter]
    exact and_iff_left (serves method)
  cases finds with
  | object there => exact .object ((stands rfl).mpr there)
  | noObject nobody => exact .noObject ((vacant rfl).mpr nobody)
  | ofClass there => exact .ofClass ((stands rfl).mpr there)
  | function nobody there => exact .function ((vacant rfl).mpr nobody) ((stands rfl).mpr there)
  | noMethod nobody noOne others =>
      exact .noMethod ((vacant rfl).mpr nobody) ((vacant rfl).mpr noOne)
        ((functions fun _ => rfl).mpr others)
  | noClass nobody none =>
      exact .noClass ((vacant rfl).mpr nobody) (mt (functions fun _ => rfl).mp none)

/-! Calls. -/

variable [Servant σ] {d : Dispatcher σ} {args : List Json}

theorem invoke_of_answer {outcome : Except Refusal Json} {next : Dispatcher σ} {millis : Nat}
    (dispatched : d.dispatch target method args = some ⟨.answered outcome, next, millis⟩) :
    Channel.inProcess.invoke none target method args d = some (Channel.outcomeOf outcome, next) :=
  Channel.dispatchWithin_of_answer dispatched nofun

theorem dispatch_of_found {place : Place} {servant : σ}
    (found : d.resolve target method = .ok (place, servant)) :
    d.dispatch target method args =
      (Servant.perform servant method args).map fun reaction =>
        reaction.map fun after => d.replace after place := by
  rw [dispatch, found]

theorem invoke_of_found {place : Place} {servant after : σ}
    (found : d.resolve target method = .ok (place, servant)) {outcome : Except Refusal Json}
    {millis : Nat} (ran : Servant.perform servant method args = some ⟨.answered outcome, after, millis⟩) :
    Channel.inProcess.invoke none target method args d =
      some (Channel.outcomeOf outcome, d.replace after place) := by
  apply invoke_of_answer
  rw [dispatch_of_found found, ran]
  rfl

theorem dispatch_of_refused {refusal : Refusal} (refused : d.resolve target method = .error refusal) :
    d.dispatch target method args = some (.answer (.error refusal) d) := by
  rw [dispatch, refused]

/-- A call finds just one servant, or is refused for what is missing. The servant it finds is run once,
nobody else is, and what its handler answers or refuses is what the caller is told; a call that is
refused runs nobody, whatever the servants do. What is registered for objects makes no difference to the
calls of classes, nor the other way round. -/
theorem called_as_registered (changes : List (Change σ)) (target : Target) (method : String)
    (args : List Json) :
    let d := after changes
    (∃! found, Finds changes target method found) ∧
      (∀ found, Finds (changes.filter (·.regards target)) target method found ↔
        Finds changes target method found) ∧
      (∀ place servant, Finds changes target method (.ok (place, servant)) →
        (d.dispatch target method args =
          (Servant.perform servant method args).map fun reaction =>
            reaction.map fun after => d.replace after place) ∧
        (∀ value after millis,
          Servant.perform servant method args = some ⟨.answered (.ok value), after, millis⟩ →
            Channel.inProcess.invoke none target method args d =
              some (.ok value, d.replace after place)) ∧
        ∀ typeName message payload after millis,
          Servant.perform servant method args =
              some ⟨.answered (.error ⟨typeName, message, payload⟩), after, millis⟩ →
            Channel.inProcess.invoke none target method args d =
              some (.error (.exception typeName message payload), d.replace after place)) ∧
      ∀ typeName message payload,
        Finds changes target method (.error ⟨typeName, message, payload⟩) →
          d.dispatch target method args =
              some (.answer (.error ⟨typeName, message, payload⟩) d) ∧
            Channel.inProcess.invoke none target method args d =
              some (.error (.exception typeName message payload), d) := by
  intro d
  refine ⟨⟨_, finds_resolve changes target method, fun other => finds_iff.mp⟩, ?_, ?_, ?_⟩
  · intro found
    have sameKind := (finds_filter_regards (finds_resolve changes target method)).resolve
    rw [finds_iff, finds_iff, sameKind]
  · intro place servant finds
    have found := finds.resolve
    exact ⟨dispatch_of_found found, fun _ _ _ ran => invoke_of_found found ran,
      fun _ _ _ _ _ ran => invoke_of_found found ran⟩
  · intro typeName message payload finds
    have dispatched : d.dispatch target method args =
        some (.answer (.error ⟨typeName, message, payload⟩) d) := dispatch_of_refused finds.resolve
    exact ⟨dispatched, invoke_of_answer dispatched⟩

/-- A class goes before the function of its name, the refusal of its handler reaches the caller whole,
and the object of the same name is there no more. -/
theorem called_as_registered_over_function :
    let changes : List (Change Host) :=
      [.register (.object "A") .empty, .register (.ofClass "A") .empty,
        .register (.function "A" "m") .empty, .unregister "A"]
    Finds changes (.ofClass "A") "m" (.ok (.ofClass "A", .empty)) ∧
      Channel.inProcess.invoke none (.ofClass "A") "m" [] (after changes) =
        some (.error (.exception "BadArguments" "m: missing argument 0 (got 0)" none),
          (after changes).replace .empty (.ofClass "A")) ∧
      Finds changes (.object "A") "m"
        (.error ⟨"UnknownTarget", "no object registered as 'A'", none⟩) ∧
      Channel.inProcess.invoke none (.object "A") "m" [] (after changes) =
        some (.error (.exception "UnknownTarget" "no object registered as 'A'" none),
          after changes) := by
  intro changes
  have finds : Finds changes (.ofClass "A") "m" (.ok (.ofClass "A", .empty)) :=
    .ofClass ⟨[_], [_, _], rfl, by simp [Change.Decides]⟩
  have nobody : Finds changes (.object "A") "m"
      (.error ⟨"UnknownTarget", "no object registered as 'A'", none⟩) :=
    .noObject (vacant_iff.mpr rfl)
  have comes := (called_as_registered changes (.ofClass "A") "m" []).2.2.1 _ _ finds
  have refused := (called_as_registered changes (.object "A") "m" []).2.2.2 _ _ _ nobody
  exact ⟨finds, comes.2.2 _ _ _ .empty 0 rfl, nobody, refused.2⟩

end Dispatcher

end Coordination
