import Coordination.Binary64
import Coordination.Table

/-!
JSON values. Integers and reals are different values even where they denote the same number. The
members of an object keep the order they are given in; `normalized` sorts them by key.
-/

namespace Coordination

inductive Json where
  | null
  | bool (b : Bool)
  | integer (n : Int)
  | real (x : Binary64)
  | string (s : String)
  | array (items : List Json)
  | object (members : List (String × Json))
  deriving Repr, Inhabited

namespace Json

/-! Decidable equality. -/

mutual
def same : Json → Json → Bool
  | .null, .null => true
  | .bool a, .bool b => a == b
  | .integer a, .integer b => a == b
  | .real a, .real b => a == b
  | .string a, .string b => a == b
  | .array xs, .array ys => sameItems xs ys
  | .object xs, .object ys => sameMembers xs ys
  | _, _ => false

def sameItems : List Json → List Json → Bool
  | [], [] => true
  | x :: xs, y :: ys => same x y && sameItems xs ys
  | _, _ => false

def sameMembers : List (String × Json) → List (String × Json) → Bool
  | [], [] => true
  | (k, x) :: xs, (l, y) :: ys => k == l && same x y && sameMembers xs ys
  | _, _ => false
end

mutual
theorem same_iff : ∀ x y : Json, same x y = true ↔ x = y
  | .null, y => by cases y <;> simp [same]
  | .bool _, y => by cases y <;> simp [same]
  | .integer _, y => by cases y <;> simp [same]
  | .real _, y => by cases y <;> simp [same]
  | .string _, y => by cases y <;> simp [same]
  | .array xs, y => by cases y <;> simp [same, sameItems_iff xs]
  | .object xs, y => by cases y <;> simp [same, sameMembers_iff xs]

theorem sameItems_iff : ∀ xs ys : List Json, sameItems xs ys = true ↔ xs = ys
  | [], ys => by cases ys <;> simp [sameItems]
  | x :: xs, ys => by cases ys <;> simp [sameItems, same_iff x, sameItems_iff xs]

theorem sameMembers_iff : ∀ xs ys : List (String × Json), sameMembers xs ys = true ↔ xs = ys
  | [], ys => by cases ys <;> simp [sameMembers]
  | (k, x) :: xs, ys => by
      cases ys with
      | nil => simp [sameMembers]
      | cons head rest => simp [sameMembers, same_iff x, sameMembers_iff xs, Prod.ext_iff]
end

instance : DecidableEq Json := fun x y => decidable_of_iff _ (same_iff x y)

/-! The values that programs exchange: integers that fit 64 bits, signed or not, finite reals, and
objects in ascending key order. -/

def FitsWord (n : Int) : Prop := -0x8000000000000000 ≤ n ∧ n < 0x10000000000000000

instance (n : Int) : Decidable (FitsWord n) := inferInstanceAs (Decidable (_ ∧ _))

mutual
def Valid : Json → Prop
  | .null | .bool _ | .string _ => True
  | .integer n => FitsWord n
  | .real x => x.isFinite = true
  | .array items => ValidItems items
  | .object members => Ascending members ∧ ValidMembers members

def ValidItems : List Json → Prop
  | [] => True
  | x :: xs => Valid x ∧ ValidItems xs

def ValidMembers : List (String × Json) → Prop
  | [] => True
  | (_, x) :: xs => Valid x ∧ ValidMembers xs
end

/-- The value of a number as a program writes it: no number is written for a NaN or an infinity. -/
def ofReal (x : Binary64) : Json := if x.isFinite then .real x else .null

def ofNat (n : Nat) : Json := .integer n

def ofOption {α : Type} (toJson : α → Json) : Option α → Json
  | none => .null
  | some a => toJson a

def member? (key : String) : Json → Option Json
  | .object members => members.lookup key
  | _ => none

/-! Objects in ascending key order; of members with one key the last stays. -/

def ofEntries (members : List (String × Json)) : List (String × Json) :=
  members.foldl (fun sorted member => insertEntry member.1 member.2 sorted) []

mutual
def normalized : Json → Json
  | .array items => .array (normalizedItems items)
  | .object members => .object (ofEntries (normalizedMembers members))
  | .null => .null
  | .bool b => .bool b
  | .integer n => .integer n
  | .real x => .real x
  | .string s => .string s

def normalizedItems : List Json → List Json
  | [] => []
  | x :: xs => normalized x :: normalizedItems xs

def normalizedMembers : List (String × Json) → List (String × Json)
  | [] => []
  | (k, x) :: xs => (k, normalized x) :: normalizedMembers xs
end

end Json

end Coordination
