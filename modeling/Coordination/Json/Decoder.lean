import Coordination.Json.Text
import Coordination.Text.Quoted

/-!
Decoding JSON values into typed ones. A decoder that fails names the first thing that is wrong: the
members of an object are met in their order, and a missing field is only missed at the end.
-/

namespace Coordination.Json

/-! Why a value does not decode. -/

inductive Found where
  | value (v : Json)
  | unitVariant
  deriving DecidableEq

def Found.describe : Found → String
  | .value .null => "null"
  | .value (.bool b) => s!"boolean `{b}`"
  | .value (.integer n) => s!"integer `{n}`"
  | .value (.real x) => "floating point `" ++ realText x ++ "`"
  | .value (.string s) => "string " ++ Text.quoted s
  | .value (.array _) => "sequence"
  | .value (.object _) => "map"
  | .unitVariant => "unit variant"

inductive DecodeError where
  | wrongType (found : Found) (expected : String)
  | outOfRange (n : Int) (expected : String)
  | notOneMember
  | missingField (name : String)
  | wrongLength (length : Nat) (expected : String)
  | unknownVariant (name : String) (known : List String)
  deriving DecidableEq

namespace DecodeError

def ticked (name : String) : String := "`" ++ name ++ "`"

def alternatives : List String → String
  | [] => "there are no variants"
  | [a] => ticked a
  | [a, b] => ticked a ++ " or " ++ ticked b
  | names => "one of " ++ String.intercalate ", " (names.map ticked)

def message : DecodeError → String
  | .wrongType found expected => "invalid type: " ++ found.describe ++ ", expected " ++ expected
  | .outOfRange n expected => s!"invalid value: integer `{n}`, expected {expected}"
  | .notOneMember => "invalid value: map, expected map with a single key"
  | .missingField name => "missing field " ++ ticked name
  | .wrongLength length expected => s!"invalid length {length}, expected {expected}"
  | .unknownVariant name known =>
      "unknown variant " ++ ticked name ++ ", expected " ++ alternatives known

end DecodeError

abbrev Decoder (α : Type) := Json → Except DecodeError α

namespace Decoder

def mismatch {α : Type} (expected : String) (v : Json) : Except DecodeError α :=
  .error (.wrongType (.value v) expected)

/-! Scalars. -/

def json : Decoder Json := fun v => .ok v

def bool : Decoder Bool
  | .bool b => .ok b
  | v => mismatch "a boolean" v

def string : Decoder String
  | .string s => .ok s
  | v => mismatch "a string" v

/-- Integers from `low` up to `high`, both included. -/
def integerWithin (low high : Int) (expected : String) : Decoder Int
  | .integer n => if low ≤ n ∧ n ≤ high then .ok n else .error (.outOfRange n expected)
  | v => mismatch expected v

def uint16 : Decoder UInt16 := fun v =>
  (fun n => UInt16.ofNat n.toNat) <$> integerWithin 0 0xffff "u16" v

def uint32 : Decoder UInt32 := fun v =>
  (fun n => UInt32.ofNat n.toNat) <$> integerWithin 0 0xffffffff "u32" v

def uint64 : Decoder UInt64 := fun v =>
  (fun n => UInt64.ofNat n.toNat) <$> integerWithin 0 0xffffffffffffffff "u64" v

/-- A count of things. Integers of more than 64 bits are no values that programs exchange. -/
def count : Decoder Nat
  | .integer n => if 0 ≤ n then .ok n.toNat else .error (.outOfRange n "usize")
  | v => mismatch "usize" v

def int64 : Decoder Int64 := fun v =>
  Int64.ofInt <$> integerWithin (-0x8000000000000000) 0x7fffffffffffffff "i64" v

/-- Any number; an integer stands for the nearest real. -/
def real : Decoder Binary64
  | .integer n => .ok (.ofInt n)
  | .real x => .ok x
  | v => mismatch "f64" v

/-! Options, sequences and pairs. -/

variable {α β : Type}

def option (decode : Decoder α) : Decoder (Option α)
  | .null => .ok none
  | v => some <$> decode v

def list (decode : Decoder α) : Decoder (List α)
  | .array items => items.mapM decode
  | v => mismatch "a sequence" v

def pair (first : Decoder α) (second : Decoder β) : Decoder (α × β)
  | .array items =>
      match items with
      | [] => .error (.wrongLength 0 "a tuple of size 2")
      | [x] => do
          let _ ← first x
          .error (.wrongLength 1 "a tuple of size 2")
      | [x, y] => do return (← first x, ← second y)
      | x :: y :: _ => do
          let _ ← first x
          let _ ← second y
          .error (.wrongLength items.length "fewer elements in array")
  | v => mismatch "a tuple of size 2" v

/-! Records, given as objects or as arrays of their fields in order. -/

/-- When a field may be left out: never, from an object only, or from an array too. -/
inductive Absence where
  | refused
  | fromObject
  | anywhere
  deriving DecidableEq

structure Field where
  name : String
  check : Json → Except DecodeError Unit
  absence : Absence

/-- How a record is put together from the values of its fields, `none` for an absent one. -/
structure Record (α : Type) where
  fields : List Field
  build : List (Option Json) → Except DecodeError (α × List (Option Json))

namespace Record

def pure (a : α) : Record α := ⟨[], fun values => .ok (a, values)⟩

def field (name : String) (absence : Absence) (absent : Except DecodeError α)
    (decode : Decoder α) : Record α where
  fields := [⟨name, fun v => (fun _ => ()) <$> decode v, absence⟩]
  build
    | some v :: rest => (fun a => (a, rest)) <$> decode v
    | none :: rest => (fun a => (a, rest)) <$> absent
    | [] => (fun a => (a, [])) <$> absent

def required (name : String) (decode : Decoder α) : Record α :=
  field name .refused (.error (.missingField name)) decode

def optional (name : String) (decode : Decoder α) : Record (Option α) :=
  field name .fromObject (.ok none) (option decode)

def defaulted (name : String) (default : α) (decode : Decoder α) : Record α :=
  field name .anywhere (.ok default) decode

def map (f : α → β) (r : Record α) : Record β where
  fields := r.fields
  build values := (fun (a, rest) => (f a, rest)) <$> r.build values

def seq (f : Record (α → β)) (r : Record α) : Record β where
  fields := f.fields ++ r.fields
  build values := do
    let (g, values) ← f.build values
    let (a, values) ← r.build values
    return (g a, values)

instance : Functor Record := ⟨map, fun a => map fun _ => a⟩

instance : Seq Record := ⟨fun f r => seq f (r ())⟩

/-- Checks the members in their order; those that are no field are passed over. -/
def checkMembers (fields : List Field) (members : List (String × Json)) :
    Except DecodeError Unit :=
  members.forM fun (key, v) =>
    match fields.find? fun f => f.name == key with
    | some f => f.check v
    | none => .ok ()

def membersInOrder (fields : List Field) (members : List (String × Json)) :
    Except DecodeError (List (Option Json)) :=
  fields.mapM fun f =>
    match members.lookup f.name with
    | some v => .ok (some v)
    | none => if f.absence = .refused then .error (.missingField f.name) else .ok none

def ofMembers (r : Record α) (members : List (String × Json)) : Except DecodeError α := do
  checkMembers r.fields members
  let values ← membersInOrder r.fields members
  Prod.fst <$> r.build values

def sized (what : String) (count : Nat) : String :=
  s!"{what} with {count} element" ++ (if count = 1 then "" else "s")

/-- Takes one item for each field; `index` counts those already taken. -/
def itemsInOrder (expected : String) (index : Nat) :
    List Field → List Json → Except DecodeError (List (Option Json))
  | [], _ => .ok []
  | f :: fields, v :: items => do
      f.check v
      let rest ← itemsInOrder expected (index + 1) fields items
      return some v :: rest
  | f :: fields, [] => do
      if f.absence = .anywhere then
        let rest ← itemsInOrder expected (index + 1) fields []
        return none :: rest
      else .error (.wrongLength index expected)

def ofItems (what : String) (r : Record α) (items : List Json) : Except DecodeError α := do
  let values ← itemsInOrder (sized what r.fields.length) 0 r.fields items
  let result ← r.build values
  if r.fields.length < items.length then
    .error (.wrongLength items.length "fewer elements in array")
  else return result.1

/-- A record called `what` in messages. -/
def decode (what : String) (r : Record α) : Decoder α
  | .object members => r.ofMembers members
  | .array items => r.ofItems what items
  | v => mismatch what v

end Record

/-! Values of one of several named kinds: a bare name, or an object whose only member is the name with
what belongs to it. -/

/-- What belongs to the name, `none` if it stands alone. -/
abbrev Case (α : Type) := Option Json → Except DecodeError α

namespace Case

def unit (a : α) : Case α
  | none | some .null => .ok a
  | some v => mismatch "unit" v

def wrap (decode : Decoder α) : Case α
  | none => .error (.wrongType .unitVariant "newtype variant")
  | some v => decode v

def record (r : Record α) : Case α
  | none => .error (.wrongType .unitVariant "struct variant")
  | some (.object members) => r.ofMembers members
  | some v => mismatch "struct variant" v

end Case

def chooseCase (cases : List (String × Case α)) (name : String) (content : Option Json) :
    Except DecodeError α :=
  match cases.lookup name with
  | some decode => decode content
  | none => .error (.unknownVariant name (cases.map (·.1)))

def oneOf (cases : List (String × Case α)) : Decoder α
  | .string name => chooseCase cases name none
  | .object [(name, v)] => chooseCase cases name (some v)
  | .object _ => .error .notOneMember
  | v => mismatch "string or map" v

end Decoder

end Coordination.Json
