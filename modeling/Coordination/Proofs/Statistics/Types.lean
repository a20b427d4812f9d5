import Coordination.Proofs.Except
import Coordination.Proofs.Table
import Coordination.Statistics.Aggregate

/-!
Types that archives declare. They fit together if no name is given to two of them, and then they are
known in ascending order of their names.
-/

namespace Coordination.AggregateReport

/-- All types that are declared, archive by archive. -/
def declarations (archives : List Archive) : List StatisticsType := archives.flatMap (·.types)

/-- A table has the declared types, each under its name. -/
def Knows (types : Table String StatisticsType) (declared : List StatisticsType) : Prop :=
  ∀ name t, types.get? name = some t ↔ t ∈ declared ∧ t.name = name

section Knows

variable {types : Table String StatisticsType} {declared : List StatisticsType}

theorem knows_empty : Knows .empty [] := by
  intro name t
  simp

theorem Knows.insert (known : Knows types declared) {t : StatisticsType}
    (new : types.get? t.name = none) : Knows (types.insert t.name t) (declared ++ [t]) := by
  intro name other
  have absent : ¬ (other ∈ declared ∧ other.name = t.name) := by
    rw [← known, new]
    exact nofun
  rw [Table.get?_insert, List.mem_append, List.mem_singleton]
  by_cases same : name = t.name
  · subst same
    simp only [if_true, Option.some.injEq]
    constructor
    · rintro rfl
      exact ⟨.inr rfl, rfl⟩
    · rintro ⟨member | rfl, named⟩
      · exact absurd ⟨member, named⟩ absent
      · rfl
  · rw [if_neg same, known]
    constructor
    · rintro ⟨member, named⟩
      exact ⟨.inl member, named⟩
    · rintro ⟨member | rfl, named⟩
      · exact ⟨member, named⟩
      · exact absurd named.symm same

theorem Knows.unique (known : Knows types declared) {s t : StatisticsType} (first : s ∈ declared)
    (second : t ∈ declared) (same : s.name = t.name) : s = t := by
  have found := (known s.name s).mpr ⟨first, rfl⟩
  have others := (known s.name t).mpr ⟨second, same.symm⟩
  exact Option.some.inj (found.symm.trans others)

theorem Knows.eq (known : Knows types declared) {others : Table String StatisticsType}
    {elsewhere : List StatisticsType} (alsoKnown : Knows others elsewhere)
    (same : ∀ t, t ∈ declared ↔ t ∈ elsewhere) : types = others := by
  apply Table.ext_get?
  intro name
  ext t
  rw [known, alsoKnown, same]

theorem Knows.mem_values_iff (known : Knows types declared) (t : StatisticsType) :
    t ∈ types.values ↔ t ∈ declared := by
  simp only [Table.mem_values_iff, known _ t, exists_and_left, exists_eq', and_true]

theorem Knows.pairwise_values (known : Knows types declared) :
    types.values.Pairwise fun s t => s.name < t.name := by
  have named (entry : String × StatisticsType) (member : entry ∈ types.entries) :
      entry.1 = entry.2.name := by
    have found := (types.mem_entries_iff entry.1 entry.2).mp member
    exact ((known _ _).mp found).2.symm
  refine List.pairwise_map.mpr (types.ascending.imp_of_mem ?_)
  intro first second isFirst isSecond below
  rw [named first isFirst, named second isSecond] at below
  exact compareOfLessAndEq_eq_lt.mp below

end Knows

/-! Merging. -/

theorem mergeType_cases {types : Table String StatisticsType} {declared : List StatisticsType}
    (known : Knows types declared) (t : StatisticsType) :
    (∃ merged, mergeType types t = .ok merged ∧ Knows merged (declared ++ [t])) ∨
      ∃ s ∈ declared, s.name = t.name ∧ s ≠ t ∧
        mergeType types t = .error (.descriptorMismatch t.name) := by
  cases found : types.get? t.name with
  | none => exact .inl ⟨_, by simp only [mergeType, found], known.insert found⟩
  | some s =>
      obtain ⟨member, named⟩ := (known _ _).mp found
      by_cases same : s = t
      · subst same
        refine .inl ⟨types, by simp only [mergeType, found, if_true], ?_⟩
        intro name other
        rw [known, List.mem_append, List.mem_singleton]
        exact and_congr_left fun _ => ⟨.inl, fun either => either.elim id (· ▸ member)⟩
      · exact .inr ⟨s, member, named, same, by simp only [mergeType, found, if_neg same]⟩

theorem foldlM_mergeType {types : Table String StatisticsType} {earlier : List StatisticsType}
    (known : Knows types earlier) (later : List StatisticsType) :
    (∃ merged, later.foldlM mergeType types = .ok merged ∧ Knows merged (earlier ++ later)) ∨
      ∃ s ∈ earlier ++ later, ∃ t ∈ earlier ++ later, s.name = t.name ∧ s ≠ t ∧
        later.foldlM mergeType types = .error (.descriptorMismatch t.name) := by
  induction later generalizing types earlier with
  | nil =>
      rw [List.append_nil]
      exact .inl ⟨types, rfl, known⟩
  | cons t later induction =>
      rw [List.foldlM_cons]
      rcases mergeType_cases known t with ⟨merged, done, stillKnown⟩ | ⟨s, member, named, apart, failed⟩
      · rw [done, ok_bind, ← List.singleton_append, ← List.append_assoc]
        exact induction stillKnown
      · rw [failed, error_bind]
        exact .inr ⟨s, List.mem_append_left _ member, t,
          List.mem_append_right _ List.mem_cons_self, named, apart, rfl⟩

theorem mergedTypes_cases (archives : List Archive) :
    (∃ types, mergedTypes archives = .ok types ∧ Knows types (declarations archives)) ∨
      ∃ s ∈ declarations archives, ∃ t ∈ declarations archives, s.name = t.name ∧ s ≠ t ∧
        mergedTypes archives = .error (.descriptorMismatch t.name) :=
  foldlM_mergeType knows_empty (declarations archives)

end Coordination.AggregateReport
