import Coordination.Json.Text
import Coordination.Statistics.Instance

/-! What one process keeps of its statistics: the types it knows, and the samples taken so far. -/

namespace Coordination

structure Archive where
  processId : UInt32
  host : String
  types : List StatisticsType
  samples : List Sample
  deriving DecidableEq, Repr

namespace Archive

def empty (processId : UInt32) (host : String) : Archive := ⟨processId, host, [], []⟩

instance : Inhabited Archive := ⟨empty 0 ""⟩

def type? (a : Archive) (name : String) : Option StatisticsType :=
  a.types.find? fun t => t.name == name

/-- Adds a type unless one of its name is there. -/
def addType (a : Archive) (t : StatisticsType) : Archive :=
  if (a.type? t.name).isSome then a else { a with types := a.types ++ [t] }

def addSamples (a : Archive) (samples : List Sample) : Archive :=
  { a with samples := a.samples ++ samples }

/-- Equality with values compared as numbers. -/
def agrees (a b : Archive) : Bool :=
  decide (a.processId = b.processId ∧ a.host = b.host ∧ a.types = b.types) &&
    a.samples.isEqv b.samples Sample.agrees

/-- Name of the file that an archive is kept in by convention. -/
def fileName (a : Archive) : String := s!"statArchive-{a.host}-{a.processId}.bin"

def toJson (a : Archive) : Json :=
  .object [("process_id", .ofNat a.processId.toNat), ("host", .string a.host),
    ("types", .array (a.types.map StatisticsType.toJson)),
    ("samples", .array (a.samples.map Sample.toJson))]

def jsonText (a : Archive) : String := a.toJson.indentedText

end Archive

end Coordination
