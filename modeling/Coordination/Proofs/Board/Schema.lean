import Coordination.Board.Schema
import Mathlib.Data.List.Nodup

/-!
What may be declared together, and how the names and the numbers of a schema belong to each other: the
number of a counter is the count of those declared before it, and it always fits its word.
-/

namespace Coordination.Schema

/-! Declarations, step by step. -/

theorem filterMap_counter?_declarations (step : Step) :
    step.declarations.filterMap Declaration.counter? = step.counterNames := by
  cases step with
  | counter | lock => rfl
  | counters names =>
      change (names.map Declaration.counter).filterMap Declaration.counter? = names
      rw [List.filterMap_map]
      exact List.filterMap_some

theorem filterMap_lock?_declarations (step : Step) :
    step.declarations.filterMap Declaration.lock? = step.lockNames := by
  cases step with
  | counter | lock => rfl
  | counters names =>
      change (names.map Declaration.counter).filterMap Declaration.lock? = []
      rw [List.filterMap_map]
      exact List.filterMap_eq_nil_iff.mpr fun _ _ => rfl

/-- What is asked of names that are declared together. -/
structure Proper (counters locks : List String) : Prop where
  distinct : counters.Nodup
  few : counters.length ≤ maxCounters
  distinctLocks : locks.Nodup

theorem ofDeclarations_eq_ok_iff {declarations : List Declaration} {s : Schema} :
    ofDeclarations declarations = .ok s ↔
      Proper (declarations.filterMap Declaration.counter?)
          (declarations.filterMap Declaration.lock?) ∧
        s = ⟨declarations.filterMap Declaration.counter?,
          declarations.filterMap Declaration.lock?⟩ := by
  simp only [ofDeclarations]
  generalize declarations.filterMap Declaration.counter? = counters
  generalize declarations.filterMap Declaration.lock? = locks
  constructor
  · intro built
    split at built
    · cases built
    · rename_i few
      split at built
      · cases built
      · cases built
      · rename_i noCounter noLock
        cases built
        exact ⟨⟨(Text.firstRepeated?_eq_none_iff counters).mp noCounter, Nat.not_lt.mp few,
          (Text.firstRepeated?_eq_none_iff locks).mp noLock⟩, rfl⟩
  · rintro ⟨proper, rfl⟩
    rw [if_neg (Nat.not_lt.mpr proper.few), (Text.firstRepeated?_eq_none_iff _).mpr proper.distinct,
      (Text.firstRepeated?_eq_none_iff _).mpr proper.distinctLocks]

theorem ofSteps_eq_ok_iff {steps : List Step} {s : Schema} :
    ofSteps steps = .ok s ↔
      Proper (steps.flatMap Step.counterNames) (steps.flatMap Step.lockNames) ∧
        s = ⟨steps.flatMap Step.counterNames, steps.flatMap Step.lockNames⟩ := by
  rw [ofSteps, ofDeclarations_eq_ok_iff, List.filterMap_flatMap, List.filterMap_flatMap]
  simp only [filterMap_counter?_declarations, filterMap_lock?_declarations]

/-! Look-ups. -/

variable {s : Schema} {name : String} {id : CounterId}

theorem counterName?_eq_some_iff :
    s.counterName? id = some name ↔
      ∃ before after, s.counters = before ++ name :: after ∧ before.length = id.number.toNat := by
  rw [counterName?]
  constructor
  · intro found
    obtain ⟨inside, here⟩ := List.getElem?_eq_some_iff.mp found
    refine ⟨s.counters.take id.number.toNat, s.counters.drop (id.number.toNat + 1), ?_, ?_⟩
    · rw [← here, ← List.drop_eq_getElem_cons inside, List.take_append_drop]
    · exact List.length_take_of_le (Nat.le_of_lt inside)
  · rintro ⟨before, after, split, count⟩
    rw [split, ← count, List.getElem?_append_right (Nat.le_refl _), Nat.sub_self]
    rfl

theorem hasCounter_iff : s.hasCounter id = true ↔ ∃ name, s.counterName? id = some name := by
  rw [hasCounter, decide_eq_true_eq, counterName?, ← Option.isSome_iff_exists,
    Option.isSome_iff_ne_none, ne_eq, List.getElem?_eq_none_iff, Nat.not_le]
  rfl

theorem findIdx?_eq_some_iff_of_nodup {names : List String} (distinct : names.Nodup) {index : Nat} :
    names.findIdx? (fun other => other == name) = some index ↔ names[index]? = some name := by
  rw [List.findIdx?_eq_some_iff_getElem, List.getElem?_eq_some_iff]
  constructor
  · rintro ⟨inside, here, -⟩
    exact ⟨inside, eq_of_beq here⟩
  · rintro ⟨inside, here⟩
    refine ⟨inside, beq_iff_eq.mpr here, ?_⟩
    intro earlier below there
    exact Nat.ne_of_lt below
      ((List.Nodup.getElem_inj_iff distinct).mp ((eq_of_beq there).trans here.symm))

/-- No position is cut short by the word that numbers it. -/
theorem counterId?_eq_some_iff (distinct : s.counters.Nodup)
    (few : s.counters.length ≤ maxCounters) :
    s.counterId? name = some id ↔ s.counterName? id = some name := by
  rw [counterId?, Option.map_eq_some_iff, counterName?]
  simp only [findIdx?_eq_some_iff_of_nodup distinct]
  constructor
  · rintro ⟨index, here, rfl⟩
    obtain ⟨inside, -⟩ := List.getElem?_eq_some_iff.mp here
    have fits : index < UInt16.size := Nat.lt_succ_of_lt (Nat.lt_of_lt_of_le inside few)
    rwa [UInt16.toNat_ofNat_of_lt' fits]
  · intro here
    exact ⟨id.number.toNat, here, by rw [UInt16.ofNat_toNat]⟩

/-! Schemas as they are declared. -/

/-- How the names and the numbers of a schema belong together. -/
structure Numbers (counters locks : List String) (s : Schema) : Prop where
  inverse : ∀ name id, s.counterId? name = some id ↔ s.counterName? id = some name
  position : ∀ name id, s.counterId? name = some id ↔
    ∃ before after, counters = before ++ name :: after ∧ before.length = id.number.toNat
  declared : ∀ name, name ∈ counters ↔ ∃ id, s.counterId? name = some id
  numbered : ∀ id, s.hasCounter id = true ↔ ∃ name, s.counterId? name = some id
  locked : ∀ name, s.hasLock name = true ↔ name ∈ locks

theorem Proper.numbers {counters locks : List String} (proper : Proper counters locks) :
    Numbers counters locks ⟨counters, locks⟩ where
  inverse name id := counterId?_eq_some_iff proper.distinct proper.few
  position name id :=
    (counterId?_eq_some_iff proper.distinct proper.few).trans counterName?_eq_some_iff
  declared name := by
    rw [← Option.isSome_iff_exists, counterId?, Option.isSome_map, List.findIdx?_isSome,
      List.any_beq', List.contains_iff_mem]
  numbered id := by
    rw [hasCounter_iff]
    exact exists_congr fun name => (counterId?_eq_some_iff proper.distinct proper.few).symm
  locked name := List.contains_iff_mem

/-- A schema comes of the steps exactly if no name is declared twice and there are numbers enough. Then
look-ups by name and by number are inverse to each other, and a counter has the count of those before it
as its number. -/
theorem names_and_numbers (steps : List Step) :
    let counters := steps.flatMap Step.counterNames
    let locks := steps.flatMap Step.lockNames
    ((∃ s, ofSteps steps = .ok s) ↔
        counters.Nodup ∧ counters.length ≤ 65535 ∧ locks.Nodup) ∧
      ∀ s, ofSteps steps = .ok s → s.Numbers counters locks := by
  intro counters locks
  refine ⟨⟨?_, ?_⟩, ?_⟩
  · rintro ⟨s, built⟩
    obtain ⟨proper, -⟩ := ofSteps_eq_ok_iff.mp built
    exact ⟨proper.distinct, proper.few, proper.distinctLocks⟩
  · rintro ⟨distinct, few, distinctLocks⟩
    exact ⟨_, ofSteps_eq_ok_iff.mpr ⟨⟨distinct, few, distinctLocks⟩, rfl⟩⟩
  · intro s built
    obtain ⟨proper, rfl⟩ := ofSteps_eq_ok_iff.mp built
    exact proper.numbers

/-- With as many counters as there can be, the last one still has its number and its name. -/
theorem names_and_numbers_of_most :
    let name (n : Nat) := String.ofList (List.replicate n 'c')
    let steps := [Step.counter (name 0), .lock (name 0), .counters ((List.range' 1 65534).map name)]
    ∃ s, ofSteps steps = .ok s ∧ s.counterId? (name 65534) = some ⟨65534⟩ ∧
      s.counterName? ⟨65534⟩ = some (name 65534) ∧ s.hasCounter ⟨65535⟩ = false ∧
      s.hasLock (name 0) = true := by
  intro name steps
  have counted (n : Nat) : name 0 :: (List.range' 1 n).map name = (List.range (n + 1)).map name := by
    rw [List.range_eq_range', List.range'_succ]
    rfl
  have declared : steps.flatMap Step.counterNames = (List.range (65534 + 1)).map name := by
    rw [← counted]
    simp only [steps, List.flatMap_cons, List.flatMap_nil, Step.counterNames, List.append_nil,
      List.nil_append, List.singleton_append]
  have locked : steps.flatMap Step.lockNames = [name 0] := by
    simp only [steps, List.flatMap_cons, List.flatMap_nil, Step.lockNames, List.append_nil,
      List.nil_append]
  have apart : Function.Injective name := by
    intro m n same
    simpa [name] using congrArg String.length same
  obtain ⟨builds, numbers⟩ := names_and_numbers steps
  rw [declared, locked] at builds numbers
  have count : ((List.range (65534 + 1)).map name).length = 65535 := by
    rw [List.length_map, List.length_range]
  obtain ⟨s, built⟩ := builds.mpr
    ⟨List.nodup_range.map apart, Nat.le_of_eq count, List.nodup_singleton _⟩
  have is := numbers s built
  have last : s.counterId? (name 65534) = some ⟨65534⟩ := by
    refine (is.position _ _).mpr ⟨(List.range 65534).map name, [], ?_, ?_⟩
    · rw [List.range_succ, List.map_append]
      rfl
    · rw [List.length_map, List.length_range]
      rfl
  refine ⟨s, built, last, (is.inverse _ _).mp last, ?_, (is.locked _).mpr List.mem_cons_self⟩
  rw [Bool.eq_false_iff, ne_eq, is.numbered]
  rintro ⟨other, known⟩
  obtain ⟨before, after, split, place⟩ := (is.position _ _).mp known
  rw [split, List.length_append, List.length_cons, place] at count
  have beyond : (⟨65535⟩ : CounterId).number.toNat = 65535 := rfl
  omega

end Coordination.Schema
