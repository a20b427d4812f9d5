/-!
Finite maps listed in strictly ascending key order. Two tables with the same look-ups are equal, and
listing one shows each key once.
-/

namespace Coordination

variable {κ : Type} {α β : Type} [Ord κ]

def Ascending (entries : List (κ × α)) : Prop :=
  entries.Pairwise fun a b => compare a.1 b.1 = .lt

/-! Operations on lists of entries. -/

/-- Puts an entry in its place, in the stead of the one with the same key. -/
def insertEntry (key : κ) (value : α) : List (κ × α) → List (κ × α)
  | [] => [(key, value)]
  | entry :: rest =>
      match compare key entry.1 with
      | .lt => (key, value) :: entry :: rest
      | .eq => (key, value) :: rest
      | .gt => entry :: insertEntry key value rest

def atKey? (key : κ) : List (κ × α) → Option α
  | [] => none
  | entry :: rest => if compare key entry.1 = .eq then some entry.2 else atKey? key rest

def eraseEntry (key : κ) (entries : List (κ × α)) : List (κ × α) :=
  entries.filter fun entry => compare key entry.1 != .eq

theorem mem_of_mem_insertEntry {key : κ} {value : α} {entry : κ × α} {entries : List (κ × α)}
    (member : entry ∈ insertEntry key value entries) : entry = (key, value) ∨ entry ∈ entries := by
  induction entries with
  | nil => simpa [insertEntry] using member
  | cons head rest induction =>
      rw [insertEntry] at member
      split at member
      · simpa using member
      · grind
      · rcases List.mem_cons.mp member with same | inRest
        · simp [same]
        · rcases induction inRest with new | old
          · exact .inl new
          · exact .inr (List.mem_cons_of_mem _ old)

theorem ascending_insertEntry [Std.TransOrd κ] [Std.LawfulEqOrd κ] (key : κ) (value : α)
    {entries : List (κ × α)} (ascending : Ascending entries) :
    Ascending (insertEntry key value entries) := by
  induction entries with
  | nil => simp [insertEntry, Ascending]
  | cons head rest induction =>
      have ⟨headBelow, restAscending⟩ := List.pairwise_cons.mp ascending
      rw [insertEntry]
      split
      · rename_i below
        refine List.pairwise_cons.mpr ⟨?_, ascending⟩
        intro entry member
        rcases List.mem_cons.mp member with same | inRest
        · exact same ▸ below
        · exact Std.TransCmp.lt_trans below (headBelow entry inRest)
      · rename_i same
        have keyEq : key = head.1 := Std.LawfulEqCmp.eq_of_compare same
        subst keyEq
        exact List.pairwise_cons.mpr ⟨headBelow, restAscending⟩
      · rename_i above
        refine List.pairwise_cons.mpr ⟨?_, induction restAscending⟩
        intro entry member
        rcases mem_of_mem_insertEntry member with new | old
        · subst new
          exact Std.OrientedCmp.lt_of_gt above
        · exact headBelow entry old

theorem ascending_eraseEntry (key : κ) {entries : List (κ × α)} (ascending : Ascending entries) :
    Ascending (eraseEntry key entries) :=
  List.Pairwise.filter _ ascending

theorem atKey?_insertEntry [Std.TransOrd κ] [Std.LawfulEqOrd κ] (key other : κ) (value : α)
    (entries : List (κ × α)) :
    atKey? other (insertEntry key value entries) =
      if compare other key = .eq then some value else atKey? other entries := by
  induction entries with
  | nil => rfl
  | cons head rest induction =>
      rw [insertEntry]
      split
      · rfl
      · rename_i same
        have keyEq : key = head.1 := Std.LawfulEqCmp.eq_of_compare same
        subst keyEq
        simp only [atKey?]
        split <;> rfl
      · rename_i above
        simp only [atKey?, induction]
        by_cases atHead : compare other head.1 = .eq
        · have headEq : other = head.1 := Std.LawfulEqCmp.eq_of_compare atHead
          subst headEq
          have apart : compare head.1 key ≠ .eq := by
            intro same
            have swapped : compare key head.1 = (compare head.1 key).swap := Std.OrientedCmp.eq_swap
            rw [swapped, same] at above
            cases above
          simp [apart, Std.ReflCmp.compare_self]
        · simp [atHead]

theorem atKey?_eraseEntry [Std.LawfulEqOrd κ] (key other : κ) (entries : List (κ × α)) :
    atKey? other (eraseEntry key entries) =
      if compare other key = .eq then none else atKey? other entries := by
  have reflexive (k : κ) : compare k k = .eq := Std.ReflCmp.compare_self
  induction entries with
  | nil => simp [eraseEntry, atKey?]
  | cons head rest induction =>
      unfold eraseEntry at induction ⊢
      by_cases erased : compare key head.1 = .eq
      · have keyEq : key = head.1 := Std.LawfulEqCmp.eq_of_compare erased
        subst keyEq
        rw [List.filter_cons_of_neg (by simp), induction]
        simp only [atKey?]
        split <;> rfl
      · rw [List.filter_cons_of_pos (by simpa using erased)]
        simp only [atKey?, induction]
        by_cases atHead : compare other head.1 = .eq
        · have headEq : other = head.1 := Std.LawfulEqCmp.eq_of_compare atHead
          subst headEq
          have apart : compare head.1 key ≠ .eq := by
            intro same
            have keyEq : head.1 = key := Std.LawfulEqCmp.eq_of_compare same
            exact erased (keyEq ▸ reflexive _)
          simp [apart]
        · simp [atHead]

/-! Tables. -/

structure Table (κ α : Type) [Ord κ] where
  entries : List (κ × α)
  ascending : Ascending entries

namespace Table

@[ext] theorem ext {s t : Table κ α} (same : s.entries = t.entries) : s = t := by
  cases s; cases t; cases same; rfl

instance [DecidableEq κ] [DecidableEq α] : DecidableEq (Table κ α) := fun s t =>
  decidable_of_iff (s.entries = t.entries) ⟨ext, fun same => same ▸ rfl⟩

def empty : Table κ α := ⟨[], List.Pairwise.nil⟩

instance : Inhabited (Table κ α) := ⟨empty⟩

def get? (t : Table κ α) (key : κ) : Option α := atKey? key t.entries

def contains (t : Table κ α) (key : κ) : Bool := (t.get? key).isSome

def size (t : Table κ α) : Nat := t.entries.length

def keys (t : Table κ α) : List κ := t.entries.map (·.1)

def values (t : Table κ α) : List α := t.entries.map (·.2)

def erase (t : Table κ α) (key : κ) : Table κ α :=
  ⟨eraseEntry key t.entries, ascending_eraseEntry key t.ascending⟩

variable [Std.TransOrd κ] [Std.LawfulEqOrd κ]

def insert (t : Table κ α) (key : κ) (value : α) : Table κ α :=
  ⟨insertEntry key value t.entries, ascending_insertEntry key value t.ascending⟩

/-- Replaces the value at `key`, `fresh` standing for one that is absent. -/
def modify (t : Table κ α) (key : κ) (fresh : α) (change : α → α) : Table κ α :=
  t.insert key (change ((t.get? key).getD fresh))

omit [Std.TransOrd κ] [Std.LawfulEqOrd κ] in
@[simp] theorem get?_empty (key : κ) : (empty : Table κ α).get? key = none := rfl

theorem get?_insert [DecidableEq κ] (t : Table κ α) (key other : κ) (value : α) :
    (t.insert key value).get? other = if other = key then some value else t.get? other := by
  change atKey? other (insertEntry key value t.entries) = _
  simp only [atKey?_insertEntry, Std.LawfulEqCmp.compare_eq_iff_eq]
  rfl

@[simp] theorem get?_insert_self (t : Table κ α) (key : κ) (value : α) :
    (t.insert key value).get? key = some value := by
  change atKey? key (insertEntry key value t.entries) = _
  simp [atKey?_insertEntry, Std.ReflCmp.compare_self]

omit [Std.TransOrd κ] in
theorem get?_erase [DecidableEq κ] (t : Table κ α) (key other : κ) :
    (t.erase key).get? other = if other = key then none else t.get? other := by
  change atKey? other (eraseEntry key t.entries) = _
  simp only [atKey?_eraseEntry, Std.LawfulEqCmp.compare_eq_iff_eq]
  rfl

end Table

end Coordination
