/-! Byte strings: fixed-width numbers in either order, UTF-8 texts, and hexadecimal text. -/

namespace Coordination

abbrev Bytes := List UInt8

namespace Bytes

/-! Fixed-width numbers. Both writers drop what does not fit the width. -/

/-- Count of the numbers that fit a width. -/
def capacity : (width : Nat) → Nat
  | 0 => 1
  | width + 1 => 256 * capacity width

def littleEndian (width n : Nat) : Bytes :=
  match width with
  | 0 => []
  | width + 1 => .ofNat (n % 256) :: littleEndian width (n / 256)

def bigEndian (width n : Nat) : Bytes := (littleEndian width n).reverse

def ofLittleEndian : Bytes → Nat
  | [] => 0
  | b :: rest => b.toNat + 256 * ofLittleEndian rest

def ofBigEndian (bytes : Bytes) : Nat := ofLittleEndian bytes.reverse

@[simp] theorem length_littleEndian (width n : Nat) : (littleEndian width n).length = width := by
  induction width generalizing n with
  | zero => rfl
  | succ width induction => simp [littleEndian, induction]

@[simp] theorem ofLittleEndian_littleEndian (width n : Nat) :
    ofLittleEndian (littleEndian width n) = n % capacity width := by
  induction width generalizing n with
  | zero => simp [littleEndian, ofLittleEndian, capacity, Nat.mod_one]
  | succ width induction =>
      simp [littleEndian, ofLittleEndian, induction, capacity, Nat.mod_mul]

@[simp] theorem length_bigEndian (width n : Nat) : (bigEndian width n).length = width := by
  simp [bigEndian]

@[simp] theorem ofBigEndian_bigEndian (width n : Nat) :
    ofBigEndian (bigEndian width n) = n % capacity width := by
  simp [ofBigEndian, bigEndian]

/-- The first `count` bytes and the rest, if there are so many. -/
def take? (count : Nat) (bytes : Bytes) : Option (Bytes × Bytes) :=
  let (first, rest) := bytes.splitAt count
  if first.length = count then some (first, rest) else none

theorem take?_append (first rest : Bytes) :
    take? first.length (first ++ rest) = some (first, rest) := by
  simp [take?]

theorem take?_eq_some_iff {count : Nat} {bytes first rest : Bytes} :
    take? count bytes = some (first, rest) ↔ bytes = first ++ rest ∧ first.length = count := by
  constructor
  · intro taken
    simp only [take?, List.splitAt_eq] at taken
    obtain ⟨length, same⟩ := Option.ite_none_right_eq_some.mp taken
    cases same
    exact ⟨(List.take_append_drop count bytes).symm, length⟩
  · rintro ⟨rfl, rfl⟩
    exact take?_append first rest

theorem take?_of_length_lt {count : Nat} {bytes : Bytes} (short : bytes.length < count) :
    take? count bytes = none := by
  rw [Option.eq_none_iff_forall_ne_some]
  rintro ⟨first, rest⟩ taken
  obtain ⟨rfl, rfl⟩ := take?_eq_some_iff.mp taken
  rw [List.length_append] at short
  omega

/-! UTF-8 texts. -/

def ofString (s : String) : Bytes := s.toByteArray.data.toList

def toString? (bytes : Bytes) : Option String := String.fromUTF8? ⟨bytes.toArray⟩

@[simp] theorem toString?_ofString (s : String) : toString? (ofString s) = some s := by
  simp [toString?, ofString, String.fromUTF8?, String.fromUTF8, s.isValidUTF8]

/-! Hexadecimal text, two lower-case digits a byte. -/

def hexDigits (bytes : Bytes) : List Char :=
  bytes.flatMap fun b => [Nat.digitChar (b.toNat / 16), Nat.digitChar (b.toNat % 16)]

def hexText (bytes : Bytes) : String := String.ofList (hexDigits bytes)

def hexValue? (c : Char) : Option Nat :=
  if c.isDigit then some (c.toNat - '0'.toNat)
  else if 'a' ≤ c ∧ c ≤ 'f' then some (c.toNat - 'a'.toNat + 10)
  else if 'A' ≤ c ∧ c ≤ 'F' then some (c.toNat - 'A'.toNat + 10)
  else none

def ofHexDigits? : List Char → Option Bytes
  | [] => some []
  | high :: low :: rest => do
      let high ← hexValue? high
      let low ← hexValue? low
      let bytes ← ofHexDigits? rest
      return .ofNat (16 * high + low) :: bytes
  | [_] => none

def ofHexText? (s : String) : Option Bytes := ofHexDigits? s.toList

end Bytes

end Coordination
