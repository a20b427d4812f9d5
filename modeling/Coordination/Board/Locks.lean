import Coordination.Table

/-!
Named locks, each free or held by one owner. A lock is not reentrant: its holder waits for it like
anybody else.
-/

namespace Coordination

/-- The locks of these names. -/
structure Locks (declared : List String) where
  holders : Table String (Option String)
  complete : ∀ name, (holders.get? name).isSome = declared.contains name
  deriving DecidableEq

namespace Locks

variable {declared : List String}

/-- Holder of a declared lock, if it has one. -/
def holder? (locks : Locks declared) (name : String) : Option (Option String) :=
  locks.holders.get? name

theorem isSome_holder? (locks : Locks declared) (name : String) :
    (locks.holder? name).isSome = declared.contains name :=
  locks.complete name

/-- Gives a lock that is there another holder, or none. -/
def withHolder (locks : Locks declared) (name : String) (next : Option String)
    (isDeclared : (locks.holder? name).isSome) : Locks declared where
  holders := locks.holders.insert name next
  complete := by
    intro other
    rw [Table.get?_insert]
    split
    · rename_i same
      subst same
      exact isDeclared.symm.trans (locks.isSome_holder? other)
    · exact locks.complete other

theorem holder?_withHolder (locks : Locks declared) {name : String} (next : Option String)
    (isDeclared : (locks.holder? name).isSome) (other : String) :
    (locks.withHolder name next isDeclared).holder? other =
      if other = name then some next else locks.holder? other :=
  Table.get?_insert locks.holders name other next

/-! All locks free. -/

def freeHolders (names : List String) : Table String (Option String) :=
  names.foldr (fun name holders => holders.insert name none) .empty

theorem get?_freeHolders (names : List String) (name : String) :
    (freeHolders names).get? name = if names.contains name then some none else none := by
  induction names with
  | nil => rfl
  | cons head rest induction =>
      change ((freeHolders rest).insert head none).get? name = _
      rw [Table.get?_insert, induction]
      by_cases same : name = head <;> simp [same]

def ofNames (names : List String) : Locks names where
  holders := freeHolders names
  complete := by
    intro name
    rw [get?_freeHolders]
    split <;> simp_all

instance : Inhabited (Locks declared) := ⟨ofNames declared⟩

@[simp] theorem holder?_ofNames (names : List String) (name : String) :
    (ofNames names).holder? name = if names.contains name then some none else none :=
  get?_freeHolders names name

/-! Taking and giving back. -/

inductive Acquisition (declared : List String) where
  | granted (after : Locks declared)
  | held
  | undeclared
  deriving DecidableEq

def acquire (locks : Locks declared) (name owner : String) : Acquisition declared :=
  match found : locks.holder? name with
  | none => .undeclared
  | some none => .granted (locks.withHolder name (some owner) (by simp [found]))
  | some (some _) => .held

inductive Release (declared : List String) where
  | released (after : Locks declared)
  | notHeld
  | undeclared
  deriving DecidableEq

def release (locks : Locks declared) (name owner : String) : Release declared :=
  match found : locks.holder? name with
  | none => .undeclared
  | some holder =>
      if holder = some owner then
        .released (locks.withHolder name none (by simp [found]))
      else .notHeld

end Locks

end Coordination
