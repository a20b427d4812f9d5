import Coordination.Bytes
import Coordination.Statistics.Archive

/-!
The binary form of archives. Numbers have a fixed width and the little end first, lists and texts stand
behind their length in eight bytes, and a choice behind its number in four.
-/

namespace Coordination.Archive

/-! Writing. -/

def lengthBytes (length : Nat) : Bytes := Bytes.littleEndian 8 length

def textBytes (s : String) : Bytes := lengthBytes (Bytes.ofString s).length ++ Bytes.ofString s

def listBytes {α : Type} (itemBytes : α → Bytes) (items : List α) : Bytes :=
  lengthBytes items.length ++ items.flatMap itemBytes

def boolBytes (b : Bool) : Bytes := [if b then 1 else 0]

def variantBytes (number : Nat) : Bytes := Bytes.littleEndian 4 number

def kindBytes : MetricKind → Bytes
  | .intCounter => variantBytes 0
  | .longCounter => variantBytes 1
  | .gauge => variantBytes 2
  | .derived numerator denominator =>
      variantBytes 3 ++ textBytes numerator ++ textBytes denominator

def metricBytes (m : Metric) : Bytes :=
  textBytes m.name ++ textBytes m.unit ++ boolBytes m.largerIsBetter ++ kindBytes m.kind

def typeBytes (t : StatisticsType) : Bytes := textBytes t.name ++ listBytes metricBytes t.metrics

def realBytes (x : Binary64) : Bytes := Bytes.littleEndian 8 x.bits.toNat

def sampleBytes (s : Sample) : Bytes :=
  textBytes s.typeName ++ textBytes s.instanceName ++ Bytes.littleEndian 8 s.timestampMs.toNat ++
    listBytes realBytes s.values

def bytes (a : Archive) : Bytes :=
  Bytes.littleEndian 4 a.processId.toNat ++ textBytes a.host ++ listBytes typeBytes a.types ++
    listBytes sampleBytes a.samples

/-! Reading, from the front of the bytes. -/

abbrev BinaryReader (α : Type) := StateT Bytes Option α

namespace BinaryReader

def natural (width : Nat) : BinaryReader Nat := fun bytes =>
  (Bytes.take? width bytes).map fun (number, rest) => (Bytes.ofLittleEndian number, rest)

def bool : BinaryReader Bool := do
  match ← natural 1 with
  | 0 => return false
  | 1 => return true
  | _ => failure

def text : BinaryReader String := do
  let length ← natural 8
  fun bytes => do
    let (body, rest) ← Bytes.take? length bytes
    return (← Bytes.toString? body, rest)

def times {α : Type} (item : BinaryReader α) : Nat → BinaryReader (List α)
  | 0 => return []
  | count + 1 => do
      let first ← item
      let rest ← times item count
      return first :: rest

def list {α : Type} (item : BinaryReader α) : BinaryReader (List α) := do times item (← natural 8)

def kind : BinaryReader MetricKind := do
  match ← natural 4 with
  | 0 => return .intCounter
  | 1 => return .longCounter
  | 2 => return .gauge
  | 3 => return .derived (← text) (← text)
  | _ => failure

def metric : BinaryReader Metric := do return ⟨← text, ← text, ← bool, ← kind⟩

def type : BinaryReader StatisticsType := do return ⟨← text, ← list metric⟩

def real : BinaryReader Binary64 := do return ⟨.ofNat (← natural 8)⟩

def sample : BinaryReader Sample := do
  return ⟨← text, ← text, .ofNat (← natural 8), ← list real⟩

def archive : BinaryReader Archive := do
  return ⟨.ofNat (← natural 4), ← text, ← list type, ← list sample⟩

end BinaryReader

/-- The archive that a byte string starts with; what follows it is left aside. -/
def ofBytes? (bytes : Bytes) : Option Archive := (BinaryReader.archive.run bytes).map (·.1)

end Coordination.Archive
