import Coordination.Proofs.Statistics.Registry

/-!
Closing an instance. What is taken out is whichever live instance has its name, while the last sample is
its own. The two are the same unless an instance that was closed before is closed again, and another one
has been made under its name in the meantime.
-/

namespace Coordination.Registry

/-- The live instance that has the name of this one. -/
def namesake? (r : Registry) (number : Nat) : Option Nat :=
  (r.instance? number).bind fun i => r.live.get? i.key

theorem namesake?_eq_some_iff {r : Registry} {number holder : Nat} :
    r.namesake? number = some holder ↔
      ∃ i, r.instance? number = some i ∧ r.live.get? i.key = some holder :=
  Option.bind_eq_some_iff

theorem close_of_no_namesake {r : Registry} {number : Nat} (now : UInt64)
    (nobody : r.namesake? number = none) : r.close number now = (false, r) := by
  refine close_of_not_live now fun i found => ?_
  rwa [namesake?, found] at nobody

/-- Closing `number` takes `holder` out of the live instances and adds a sample of `number`. -/
structure Closes (r : Registry) (number holder : Nat) (now : UInt64) : Prop where
  answer : (r.close number now).1 = true
  live : (r.close number now).2.live.values = r.live.values.filter (· ≠ holder)
  sample : ∃ i, r.instance? number = some i ∧
    (r.close number now).2.archive = r.archive.addSamples [i.sample now]
  types : (r.close number now).2.types = r.types
  instances : (r.close number now).2.instances = r.instances

/-- An instance that is live is closed, and one that is not is left alone. -/
def ClosesItself (r : Registry) (number : Nat) (now : UInt64) : Prop :=
  number ∈ r.live.values ∧ r.Closes number number now ∨
    number ∉ r.live.values ∧ r.close number now = (false, r)

section

variable {r : Registry} (sound : Sound r)

include sound

theorem Sound.mem_live_iff (number : Nat) :
    number ∈ r.live.values ↔ r.namesake? number = some number := by
  rw [Table.mem_values_iff, namesake?_eq_some_iff]
  constructor
  · rintro ⟨key, held⟩
    obtain ⟨title, there, -⟩ := sound.live key number held
    rw [getElem?_titles] at there
    obtain ⟨i, found, -⟩ := Option.map_eq_some_iff.mp there
    exact ⟨i, found, sound.key_eq held found ▸ held⟩
  · rintro ⟨i, -, held⟩
    exact ⟨i.key, held⟩

theorem Sound.values_erase {key : InstanceKey} {holder : Nat} (held : r.live.get? key = some holder) :
    (r.live.erase key).values = r.live.values.filter (· ≠ holder) := by
  rw [Table.values, Table.values, List.filter_map]
  refine congrArg _ (List.filter_congr fun entry member => ?_)
  have there := (r.live.mem_entries_iff _ _).mp member
  have same : key = entry.1 ↔ entry.2 = holder := by
    constructor
    · rintro rfl
      exact Option.some.inj (there.symm.trans held)
    · rintro rfl
      obtain ⟨title, first, rfl⟩ := sound.live key _ held
      obtain ⟨other, second, named⟩ := sound.live entry.1 _ there
      rw [first] at second
      cases second
      exact named
  rw [Bool.eq_iff_iff]
  simp [Std.LawfulEqCmp.compare_eq_iff_eq, same]

theorem Sound.closes {number holder : Nat} (now : UInt64)
    (named : r.namesake? number = some holder) : r.Closes number holder now := by
  obtain ⟨i, found, held⟩ := namesake?_eq_some_iff.mp named
  have closed := close_of_live now found held
  refine ⟨?_, ?_, ⟨i, found, ?_⟩, ?_, ?_⟩
  all_goals rw [closed]
  exact sound.values_erase held

theorem Sound.closesItself_iff (number : Nat) (now : UInt64) :
    r.ClosesItself number now ↔ ∀ holder, r.namesake? number = some holder → holder = number := by
  rw [ClosesItself, sound.mem_live_iff]
  constructor
  · rintro (⟨itself, -⟩ | ⟨-, kept⟩) holder named
    · exact Option.some.inj (named.symm.trans itself)
    · have answer := (sound.closes now named).answer
      rw [kept] at answer
      cases answer
  · intro only
    cases named : r.namesake? number with
    | none => exact .inr ⟨nofun, close_of_no_namesake now named⟩
    | some holder =>
        cases only holder named
        exact .inl ⟨rfl, sound.closes now named⟩

end

/-- Whatever has happened: if there is a live instance of that name, it is the one that is taken out. So
an instance closes itself just when no other one has its name. -/
theorem close_by_name (processId : UInt32) (host : String) (events : List Event) (number : Nat)
    (now : UInt64) :
    let r := (empty processId host).after events
    (∀ holder, r.namesake? number = some holder → r.Closes number holder now) ∧
      (r.namesake? number = none → r.close number now = (false, r)) ∧
      (r.ClosesItself number now ↔ ∀ holder, r.namesake? number = some holder → holder = number) := by
  intro r
  have sound : Sound r := ((sound_empty processId host).after events).1
  exact ⟨fun holder => sound.closes now, close_of_no_namesake now, sound.closesItself_iff number now⟩

/-- A handle that was kept takes out the instance that was made under its name after it was closed. -/
theorem kept_handle_closes_namesake :
    let t : StatisticsType := ⟨"Cache", [⟨"puts", "operations", true, .longCounter⟩]⟩
    let r := (empty 1 "node").after
      [.register t, .obtain "Cache" (.thread 1) none none, .update 0 (.incrementBy "puts" 5),
        .close 0 100, .obtain "Cache" (.thread 1) none none, .update 1 (.incrementBy "puts" 7)]
    r.live.values = [1] ∧ (r.close 0 200).1 = true ∧ (r.close 0 200).2.live.values = [] ∧
      (r.close 0 200).2.archive.samples =
        [⟨"Cache", "thread_1", 100, [.ofNat 5]⟩, ⟨"Cache", "thread_1", 200, [.ofNat 5]⟩] ∧
      ¬ r.ClosesItself 0 200 := by
  intro t r
  have live : r.live.values = [1] := by decide +kernel
  have answer : (r.close 0 200).1 = true := by decide +kernel
  refine ⟨live, answer, by decide +kernel, by decide +kernel, ?_⟩
  rintro (⟨itself, -⟩ | ⟨-, kept⟩)
  · rw [live] at itself
    cases List.mem_singleton.mp itself
  · rw [kept] at answer
    cases answer

end Coordination.Registry
