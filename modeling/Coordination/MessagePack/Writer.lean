import Coordination.Bytes
import Coordination.Json.Basic

/-! JSON values as MessagePack, every integer and length in its shortest form. -/

namespace Coordination.MessagePack

/-! Heads: a first byte, and the bytes of a number where it does not fit in there. -/

def head (tag : UInt8) (width n : Nat) : Bytes := tag :: Bytes.bigEndian width n

def naturalBytes (n : Nat) : Bytes :=
  if n < 0x80 then [.ofNat n]
  else if n < 0x100 then head 0xcc 1 n
  else if n < 0x10000 then head 0xcd 2 n
  else if n < 0x100000000 then head 0xce 4 n
  else head 0xcf 8 n

/-- Bytes of the integer `-n`, in two's complement. -/
def negativeBytes (n : Nat) : Bytes :=
  if n ≤ 0x20 then [.ofNat (0x100 - n)]
  else if n ≤ 0x80 then head 0xd0 1 (0x100 - n)
  else if n ≤ 0x8000 then head 0xd1 2 (0x10000 - n)
  else if n ≤ 0x80000000 then head 0xd2 4 (0x100000000 - n)
  else head 0xd3 8 (0x10000000000000000 - n)

def integerBytes (n : Int) : Bytes :=
  if n < 0 then negativeBytes n.natAbs else naturalBytes n.natAbs

/-! Lengths are numbers of 32 bits; one that does not fit is cut down to them first. -/

def textHead (length : UInt32) : Bytes :=
  if length.toNat < 0x20 then [.ofNat (0xa0 + length.toNat)]
  else if length.toNat < 0x100 then head 0xd9 1 length.toNat
  else if length.toNat < 0x10000 then head 0xda 2 length.toNat
  else head 0xdb 4 length.toNat

def textBytes (s : String) : Bytes :=
  textHead (.ofNat (Bytes.ofString s).length) ++ Bytes.ofString s

def arrayHead (count : UInt32) : Bytes :=
  if count.toNat < 0x10 then [.ofNat (0x90 + count.toNat)]
  else if count.toNat < 0x10000 then head 0xdc 2 count.toNat
  else head 0xdd 4 count.toNat

def mapHead (count : UInt32) : Bytes :=
  if count.toNat < 0x10 then [.ofNat (0x80 + count.toNat)]
  else if count.toNat < 0x10000 then head 0xde 2 count.toNat
  else head 0xdf 4 count.toNat

mutual
def bytes : Json → Bytes
  | .null => [0xc0]
  | .bool false => [0xc2]
  | .bool true => [0xc3]
  | .integer n => integerBytes n
  | .real x => head 0xcb 8 x.bits.toNat
  | .string s => textBytes s
  | .array items => arrayHead (.ofNat items.length) ++ itemBytes items
  | .object members => mapHead (.ofNat members.length) ++ memberBytes members

def itemBytes : List Json → Bytes
  | [] => []
  | x :: xs => bytes x ++ itemBytes xs

def memberBytes : List (String × Json) → Bytes
  | [] => []
  | (k, x) :: xs => textBytes k ++ bytes x ++ memberBytes xs
end

end Coordination.MessagePack
