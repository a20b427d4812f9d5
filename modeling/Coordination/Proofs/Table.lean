import Coordination.Table
import Mathlib

/-! A table is determined by its look-ups, so writing back what is there changes nothing. -/

namespace Coordination

variable {κ : Type} {α : Type} [Ord κ]

theorem atKey?_eq_none {key : κ} {entries : List (κ × α)}
    (absent : ∀ entry ∈ entries, compare key entry.1 ≠ .eq) : atKey? key entries = none := by
  induction entries with
  | nil => rfl
  | cons head rest induction =>
      rw [atKey?, if_neg (absent head List.mem_cons_self)]
      exact induction fun entry member => absent entry (List.mem_cons_of_mem _ member)

theorem insertEntry_of_all_lt [Std.OrientedOrd κ] {key : κ} {value : α} {entries : List (κ × α)}
    (below : ∀ entry ∈ entries, compare entry.1 key = .lt) :
    insertEntry key value entries = entries ++ [(key, value)] := by
  induction entries with
  | nil => rfl
  | cons head rest induction =>
      have above : compare key head.1 = .gt :=
        Std.OrientedCmp.gt_of_lt (below head List.mem_cons_self)
      simp only [insertEntry, above, List.cons_append]
      rw [induction fun entry member => below entry (List.mem_cons_of_mem _ member)]

theorem insertEntry_perm {key : κ} {value : α} {entries : List (κ × α)}
    (absent : ∀ entry ∈ entries, compare key entry.1 ≠ .eq) :
    (insertEntry key value entries).Perm ((key, value) :: entries) := by
  induction entries with
  | nil => exact .refl _
  | cons head rest induction =>
      obtain ⟨notHead, notRest⟩ := List.forall_mem_cons.mp absent
      rw [insertEntry]
      split
      · exact .refl _
      · contradiction
      · exact ((induction notRest).cons head).trans (.swap _ _ _)

/-- An entry weighs in for the one that it replaces. -/
theorem sum_insertEntry [Std.TransOrd κ] [Std.LawfulEqOrd κ] (weight : α → Nat) (key : κ) (value : α)
    {entries : List (κ × α)} (ascending : Ascending entries) :
    ((insertEntry key value entries).map fun entry => weight entry.2).sum +
        ((atKey? key entries).map weight).getD 0 =
      (entries.map fun entry => weight entry.2).sum + weight value := by
  induction entries with
  | nil => simp [insertEntry, atKey?]
  | cons head rest induction =>
      obtain ⟨headBelow, restAscending⟩ := List.pairwise_cons.mp ascending
      rw [insertEntry, atKey?]
      split
      · rename_i below
        have notInRest : atKey? key rest = none := atKey?_eq_none fun entry member => by
          simp [Std.TransCmp.lt_trans below (headBelow entry member)]
        simp [below, notInRest]
        omega
      · rename_i same
        simp [same]
        omega
      · rename_i above
        have inRest := induction restAscending
        simp [above]
        omega

/-- Entries that are in ascending order are put in their places one after the other. -/
theorem foldl_insertEntry_of_ascending [Std.OrientedOrd κ] {earlier entries : List (κ × α)}
    (ascending : Ascending (earlier ++ entries)) :
    entries.foldl (fun sorted entry => insertEntry entry.1 entry.2 sorted) earlier =
      earlier ++ entries := by
  induction entries generalizing earlier with
  | nil => simp
  | cons head rest induction =>
      have below : ∀ entry ∈ earlier, compare entry.1 head.1 = .lt := fun entry member =>
        (List.pairwise_append.mp ascending).2.2 entry member head List.mem_cons_self
      rw [← List.singleton_append, ← List.append_assoc] at ascending ⊢
      rw [List.singleton_append, List.foldl_cons, insertEntry_of_all_lt below]
      exact induction ascending

theorem Ascending.nodup_keys [Std.LawfulEqOrd κ] {entries : List (κ × α)}
    (ascending : Ascending entries) : (entries.map (·.1)).Nodup := by
  refine List.pairwise_map.mpr (ascending.imp ?_)
  intro first second below same
  have equal : compare second.1 second.1 = .eq := Std.ReflCmp.compare_self
  rw [same, equal] at below
  cases below

/-- What is in ascending order of keys is determined by its members. -/
theorem eq_of_ascending [Std.TransOrd κ] [Std.LawfulEqOrd κ] (key : α → κ) {first second : List α}
    (ascending : first.Pairwise fun a b => compare (key a) (key b) = .lt)
    (alsoAscending : second.Pairwise fun a b => compare (key a) (key b) = .lt)
    (same : ∀ a, a ∈ first ↔ a ∈ second) : first = second := by
  have irreflexive : Std.Irrefl fun a b : α => compare (key a) (key b) = .lt :=
    ⟨fun a => by simp [Std.ReflCmp.compare_self]⟩
  have antisymmetric : Std.Antisymm fun a b : α => compare (key a) (key b) = .lt :=
    ⟨fun a b below above => by
      rw [Std.OrientedCmp.gt_of_lt above] at below
      cases below⟩
  exact List.Pairwise.eq_of_mem_iff ascending alsoAscending @same

namespace Table

theorem pairwise_keys (t : Table κ α) : t.keys.Pairwise fun a b => compare a b = .lt :=
  List.pairwise_map.mpr t.ascending

/-- Where every value is a function of its key, listing the values is listing that function. -/
theorem values_eq_map (t : Table κ α) {f : κ → α}
    (filed : ∀ key value, (key, value) ∈ t.entries → value = f key) :
    t.values = t.keys.map f := by
  rw [values, keys, List.map_map]
  exact List.map_congr_left fun entry member => filed entry.1 entry.2 member

variable [Std.TransOrd κ] [Std.LawfulEqOrd κ]

omit [Std.TransOrd κ] in
theorem mem_entries_iff (t : Table κ α) (key : κ) (value : α) :
    (key, value) ∈ t.entries ↔ t.get? key = some value := by
  obtain ⟨entries, ascending⟩ := t
  change (key, value) ∈ entries ↔ atKey? key entries = some value
  induction entries with
  | nil => simp [atKey?]
  | cons head rest induction =>
      obtain ⟨headBelow, restAscending⟩ := List.pairwise_cons.mp ascending
      rw [atKey?, List.mem_cons, induction restAscending]
      by_cases atHead : compare key head.1 = .eq
      · have keyEq : key = head.1 := Std.LawfulEqCmp.eq_of_compare atHead
        subst keyEq
        have onlyHead : atKey? head.1 rest = none :=
          atKey?_eq_none fun entry member => by simp [headBelow entry member]
        simp [onlyHead, Prod.ext_iff, eq_comm]
      · have notHead : (key, value) ≠ head := by
          rintro rfl
          exact atHead Std.ReflCmp.compare_self
        simp [atHead, notHead]

omit [Std.TransOrd κ] in
theorem mem_keys_iff (t : Table κ α) (key : κ) :
    key ∈ t.keys ↔ ∃ value, t.get? key = some value := by
  simp only [keys, List.mem_map, Prod.exists, mem_entries_iff, exists_and_right, exists_eq_right]

omit [Std.TransOrd κ] in
theorem mem_values_iff (t : Table κ α) (value : α) :
    value ∈ t.values ↔ ∃ key, t.get? key = some value := by
  simp only [values, List.mem_map, Prod.exists, mem_entries_iff, exists_eq_right]

theorem ext_get? {s t : Table κ α} (same : ∀ key, s.get? key = t.get? key) : s = t := by
  apply Table.ext
  apply eq_of_ascending Prod.fst s.ascending t.ascending
  rintro ⟨key, value⟩
  rw [mem_entries_iff, mem_entries_iff, same]

variable [DecidableEq κ]

theorem get?_modify (t : Table κ α) (key other : κ) (fresh : α) (change : α → α) :
    (t.modify key fresh change).get? other =
      if other = key then some (change ((t.get? key).getD fresh)) else t.get? other :=
  get?_insert t key other _

omit [DecidableEq κ] in
/-- A change that makes every value heavier by the same weight makes the table heavier by it. -/
theorem sum_values_modify (t : Table κ α) (key : κ) {fresh : α} {change : α → α} {weight : α → Nat}
    {more : Nat} (weightless : weight fresh = 0)
    (heavier : ∀ a, weight (change a) = weight a + more) :
    ((t.modify key fresh change).values.map weight).sum = (t.values.map weight).sum + more := by
  have balance := sum_insertEntry weight key (change ((t.get? key).getD fresh)) t.ascending
  have former : weight ((t.get? key).getD fresh) = ((atKey? key t.entries).map weight).getD 0 := by
    rw [get?]
    cases atKey? key t.entries with
    | none => exact weightless
    | some value => rfl
  simp only [values, List.map_map]
  change ((insertEntry key _ t.entries).map fun entry => weight entry.2).sum =
    (t.entries.map fun entry => weight entry.2).sum + more
  rw [heavier, former] at balance
  omega

theorem insert_of_get? {t : Table κ α} {key : κ} {value : α} (found : t.get? key = some value) :
    t.insert key value = t := by
  apply ext_get?
  intro other
  rw [get?_insert]
  split
  · rename_i same
    exact same ▸ found.symm
  · rfl

theorem erase_of_get? {t : Table κ α} {key : κ} (absent : t.get? key = none) : t.erase key = t := by
  apply ext_get?
  intro other
  rw [get?_erase]
  split
  · rename_i same
    exact same ▸ absent.symm
  · rfl

@[simp] theorem insert_insert (t : Table κ α) (key : κ) (first second : α) :
    (t.insert key first).insert key second = t.insert key second := by
  apply ext_get?
  intro other
  simp only [get?_insert]
  split <;> rfl

end Table

end Coordination
