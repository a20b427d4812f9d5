import Coordination.Toml.Basic

/-!
Decoding TOML values into typed ones. Records are tables or arrays of their fields in order; entries and
items past the fields are passed over, and a moment counts as a table with nothing known in it.
-/

namespace Coordination.Toml

variable {α : Type}

def asString? : Toml → Option String
  | .string s => some s
  | _ => none

def asBool? : Toml → Option Bool
  | .bool b => some b
  | _ => none

/-- A whole number below `bound` that is not negative. -/
def asNatural? (bound : Nat) : Toml → Option Nat
  | .integer n => if 0 ≤ n ∧ n < bound then some n.toNat else none
  | _ => none

/-- A name, or a table with one empty entry under it. -/
def oneOf? (cases : List (String × α)) : Toml → Option α
  | .string name | .table [(name, .table [])] | .table [(name, .array [])] => cases.lookup name
  | _ => none

/-! Fields. -/

/-- Where the fields of a record are found. -/
inductive Fields where
  | byName (entries : List (String × Toml))
  | inOrder (items : List Toml)

namespace Fields

def of? : Toml → Option Fields
  | .table entries => some (.byName entries)
  | .moment => some (.byName [])
  | .array items => some (.inOrder items)
  | _ => none

def at? (fields : Fields) (name : String) (index : Nat) : Option Toml :=
  match fields with
  | .byName entries => entries.lookup name
  | .inOrder items => items[index]?

/-- A field that takes a default where it is absent. -/
def withDefault? (fields : Fields) (name : String) (index : Nat) (default : α)
    (decode : Toml → Option α) : Option α :=
  match fields.at? name index with
  | none => some default
  | some v => decode v

/-- A field that may be absent from a table. -/
def optional? (fields : Fields) (name : String) (index : Nat) (decode : Toml → Option α) :
    Option (Option α) :=
  match fields, fields.at? name index with
  | _, some v => (decode v).map some
  | .byName _, none => some none
  | .inOrder _, none => none

end Fields

end Coordination.Toml
