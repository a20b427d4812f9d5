import Coordination.Bytes
import Coordination.Json.Basic

/-!
MessagePack items as they stand in a byte string, whatever their width, and the JSON values that they
denote.
-/

namespace Coordination.MessagePack

/-- A number keeps whether it was written as a signed one; `malformed` is a text that is not UTF-8,
and `extension` a value of a type outside the format. -/
inductive Item where
  | nil
  | bool (b : Bool)
  | unsigned (n : Nat)
  | signed (n : Int)
  | real (x : Binary64)
  | text (s : String)
  | malformed
  | binary (bytes : Bytes)
  | extension
  | array (items : List Item)
  | map (entries : List (Item × Item))
  deriving Inhabited

/-! Reading. -/

/-- What the first byte of an item announces. -/
inductive Head where
  | done (item : Item)
  | text (length : Nat)
  | binary (length : Nat)
  | extension (length : Nat)
  | array (count : Nat)
  | map (count : Nat)

namespace Head

/-- A number of `width` bytes, in two's complement. -/
def signedOf (width n : Nat) : Int :=
  if 2 * n < Bytes.capacity width then n else (n : Int) - Bytes.capacity width

def read (bytes : Bytes) : Option (Head × Bytes) :=
  match bytes with
  | [] => none
  | tag :: rest =>
      let withNumber (width : Nat) (make : Nat → Head) : Option (Head × Bytes) :=
        (Bytes.take? width rest).map fun (number, rest) => (make (Bytes.ofBigEndian number), rest)
      let unsigned (width : Nat) := withNumber width fun n => .done (.unsigned n)
      let signed (width : Nat) := withNumber width fun n => .done (.signed (signedOf width n))
      let t := tag.toNat
      if t < 0x80 then some (.done (.unsigned t), rest)
      else if t < 0x90 then some (.map (t - 0x80), rest)
      else if t < 0xa0 then some (.array (t - 0x90), rest)
      else if t < 0xc0 then some (.text (t - 0xa0), rest)
      else if 0xe0 ≤ t then some (.done (.signed ((t : Int) - 256)), rest)
      else match t with
        | 0xc0 => some (.done .nil, rest)
        | 0xc2 => some (.done (.bool false), rest)
        | 0xc3 => some (.done (.bool true), rest)
        | 0xc4 => withNumber 1 .binary
        | 0xc5 => withNumber 2 .binary
        | 0xc6 => withNumber 4 .binary
        | 0xc7 => withNumber 1 fun n => .extension (n + 1)
        | 0xc8 => withNumber 2 fun n => .extension (n + 1)
        | 0xc9 => withNumber 4 fun n => .extension (n + 1)
        | 0xca => withNumber 4 fun n => .done (.real (.ofBinary32 (.ofNat n)))
        | 0xcb => withNumber 8 fun n => .done (.real ⟨.ofNat n⟩)
        | 0xcc => unsigned 1
        | 0xcd => unsigned 2
        | 0xce => unsigned 4
        | 0xcf => unsigned 8
        | 0xd0 => signed 1
        | 0xd1 => signed 2
        | 0xd2 => signed 4
        | 0xd3 => signed 8
        | 0xd4 => some (.extension 2, rest)
        | 0xd5 => some (.extension 3, rest)
        | 0xd6 => some (.extension 5, rest)
        | 0xd7 => some (.extension 9, rest)
        | 0xd8 => some (.extension 17, rest)
        | 0xd9 => withNumber 1 .text
        | 0xda => withNumber 2 .text
        | 0xdb => withNumber 4 .text
        | 0xdc => withNumber 2 .array
        | 0xdd => withNumber 4 .array
        | 0xde => withNumber 2 .map
        | 0xdf => withNumber 4 .map
        | _ => none

end Head

namespace Item

def ofTextBytes (bytes : Bytes) : Item :=
  match Bytes.toString? bytes with
  | some s => .text s
  | none => .malformed

mutual
/-- Reads one item; `fuel` bounds the nesting and the count of items still to be read. -/
def readWith (fuel : Nat) (bytes : Bytes) : Option (Item × Bytes) :=
  match fuel with
  | 0 => none
  | fuel + 1 =>
      match Head.read bytes with
      | none => none
      | some (.done item, rest) => some (item, rest)
      | some (.text length, rest) =>
          (Bytes.take? length rest).map fun (body, rest) => (ofTextBytes body, rest)
      | some (.binary length, rest) =>
          (Bytes.take? length rest).map fun (body, rest) => (.binary body, rest)
      | some (.extension length, rest) =>
          (Bytes.take? length rest).map fun (_, rest) => (.extension, rest)
      | some (.array count, rest) =>
          (readItems fuel count rest).map fun (items, rest) => (.array items, rest)
      | some (.map count, rest) =>
          (readEntries fuel count rest).map fun (entries, rest) => (.map entries, rest)

def readItems (fuel count : Nat) (bytes : Bytes) : Option (List Item × Bytes) :=
  match fuel, count with
  | _, 0 => some ([], bytes)
  | 0, _ + 1 => none
  | fuel + 1, count + 1 =>
      match readWith fuel bytes with
      | none => none
      | some (item, rest) =>
          (readItems fuel count rest).map fun (items, rest) => (item :: items, rest)

def readEntries (fuel count : Nat) (bytes : Bytes) : Option (List (Item × Item) × Bytes) :=
  match fuel, count with
  | _, 0 => some ([], bytes)
  | 0, _ + 1 => none
  | fuel + 1, count + 1 =>
      match readWith fuel bytes with
      | none => none
      | some (key, rest) =>
          match readWith fuel rest with
          | none => none
          | some (value, rest) =>
              (readEntries fuel count rest).map fun (entries, rest) =>
                ((key, value) :: entries, rest)
end

/-- The item that a byte string starts with. -/
def read (bytes : Bytes) : Option (Item × Bytes) := readWith (2 * bytes.length + 2) bytes

/-! Nesting. Each array or map inside another takes one step from a budget, which must not run
out. -/

def descend? (budget : Nat) : Option Nat := if budget ≤ 1 then none else some (budget - 1)

mutual
def fits (budget : Nat) : Item → Bool
  | .array items =>
      match descend? budget with
      | some budget => itemsFit budget items
      | none => false
  | .map entries =>
      match descend? budget with
      | some budget => entriesFit budget entries
      | none => false
  | _ => true

def itemsFit (budget : Nat) : List Item → Bool
  | [] => true
  | item :: items => fits budget item && itemsFit budget items

def entriesFit (budget : Nat) : List (Item × Item) → Bool
  | [] => true
  | (key, value) :: entries => fits budget key && fits budget value && entriesFit budget entries
end

/-! Values. -/

def text? : Item → Option String
  | .text s => some s
  | .binary bytes => Bytes.toString? bytes
  | _ => none

def natural? (bound : Nat) : Item → Option Nat
  | .unsigned n => if n < bound then some n else none
  | .signed n => if 0 ≤ n ∧ n < bound then some n.toNat else none
  | _ => none

mutual
/-- The JSON value that an item denotes. The first key of a map has to be a text; the others may
be bytes that spell one. -/
def json? (budget : Nat) : Item → Option Json
  | .nil => some .null
  | .bool b => some (.bool b)
  | .unsigned n => some (.integer n)
  | .signed n => some (.integer n)
  | .real x => some (.ofReal x)
  | .text s => some (.string s)
  | .array items =>
      match descend? budget with
      | some budget => (jsonItems? budget items).map .array
      | none => none
  | .map entries =>
      match descend? budget, entries with
      | none, _ => none
      | some _, [] => some (.object [])
      | some budget, (.text key, value) :: entries =>
          match json? budget value, jsonMembers? budget entries with
          | some value, some members => some (.object (Json.ofEntries ((key, value) :: members)))
          | _, _ => none
      | some _, _ => none
  | _ => none

def jsonItems? (budget : Nat) : List Item → Option (List Json)
  | [] => some []
  | item :: items =>
      match json? budget item, jsonItems? budget items with
      | some value, some values => some (value :: values)
      | _, _ => none

def jsonMembers? (budget : Nat) : List (Item × Item) → Option (List (String × Json))
  | [] => some []
  | (key, value) :: entries =>
      match text? key, json? budget value, jsonMembers? budget entries with
      | some key, some value, some members => some ((key, value) :: members)
      | _, _, _ => none
end

/-! Records, given as arrays of their fields or as maps from field names, and choices, given as maps
with one entry. -/

/-- Position in `names` that a key or variant stands for: the name, its bytes, or the number. -/
def position? (names : List String) : Item → Option (Option Nat)
  | .unsigned n => some (if n < names.length then some n else none)
  | .text s => some (names.findIdx? (· == s))
  | .malformed => some none
  | .binary bytes => some (names.findIdx? fun name => Bytes.ofString name == bytes)
  | _ => none

/-- Puts the entries of a map at the positions of their keys, where each may stand once; entries
without a position are passed over. -/
def placeFields? (budget : Nat) (names : List String) (placed : List (Option Item)) :
    List (Item × Item) → Option (List (Option Item))
  | [] => some placed
  | (key, value) :: entries =>
      match position? names key with
      | none => none
      | some none =>
          if fits budget value then placeFields? budget names placed entries else none
      | some (some index) =>
          match placed[index]? with
          | some none => placeFields? budget names (placed.set index (some value)) entries
          | _ => none

/-- Fields of a record in order, and the budget inside it. -/
def fields? (budget : Nat) (names : List String) (item : Item) :
    Option (List (Option Item) × Nat) :=
  match descend? budget, item with
  | some budget, .array items =>
      if items.length = names.length then some (items.map some, budget) else none
  | some budget, .map entries =>
      (placeFields? budget names (names.map fun _ => none) entries).map (·, budget)
  | _, _ => none

/-- Number of the variant, and what it holds. -/
def variant? (names : List String) : Item → Option (Nat × Item)
  | .map [(key, content)] => (position? names key).join.map (·, content)
  | _ => none

end Item

end Coordination.MessagePack
