import Coordination.Counter
import Coordination.InPlace
import Coordination.Statistics.Metric

/-!
Live values of the metrics of a type. Each metric has one slot of 64 bits: counters add to it, a gauge
keeps the bits of a real in it, and derived metrics leave it alone.
-/

namespace Coordination

/-- Whether an instance belongs to one worker or to the whole process. -/
inductive Scope where
  | thread (number : Nat)
  | process
  deriving DecidableEq, Repr

namespace Scope

def text : Scope → String
  | .thread number => s!"thread {number}"
  | .process => "vm"

def defaultName (processId : UInt32) : Scope → String
  | .thread number => s!"thread_{number}"
  | .process => s!"vm_{processId}"

/-- Name of an instance, behind `trim` unless that is empty. -/
def instanceName (processId : UInt32) (scope : Scope) (name trim : Option String) : String :=
  let base := name.getD (scope.defaultName processId)
  match trim with
  | none | some "" => base
  | some trim => trim ++ "_" ++ base

end Scope

/-- Values of one instance at one moment, in the order of its metrics. -/
structure Sample where
  typeName : String
  instanceName : String
  timestampMs : UInt64
  values : List Binary64
  deriving DecidableEq, Repr

namespace Sample

/-- Equality with values compared as numbers. -/
def agrees (s t : Sample) : Bool :=
  decide (s.typeName = t.typeName ∧ s.instanceName = t.instanceName ∧ s.timestampMs = t.timestampMs) &&
    s.values.isEqv t.values Binary64.equals

def toJson (s : Sample) : Json :=
  .object [("type_name", .string s.typeName), ("instance", .string s.instanceName),
    ("timestamp_ms", .ofNat s.timestampMs.toNat), ("values", .array (s.values.map .ofReal))]

end Sample

structure Instance where
  type : StatisticsType
  name : String
  scope : Scope
  slots : Vector Counter type.metrics.length

namespace Instance

def fresh (type : StatisticsType) (name : String) (scope : Scope) : Instance :=
  ⟨type, name, scope, .replicate _ .zero⟩

/-! Metrics by name. -/

/-- A metric of the instance, by position. -/
abbrev Position (i : Instance) := Fin i.type.metrics.length

def kindAt (i : Instance) (p : i.Position) : MetricKind := (i.type.metrics.get p).kind

def position? (i : Instance) (metric : String) : Option i.Position :=
  match i.type.index? metric with
  | some index => if inside : index < i.type.metrics.length then some ⟨index, inside⟩ else none
  | none => none

def resolve (i : Instance) (metric : String) : Except Fault i.Position :=
  match i.position? metric with
  | some p => .ok p
  | none => .error (.unknownMetric i.type.name metric)

/-- The metric, if its kind is one that `accepts` holds of. -/
def expect (i : Instance) (metric : String) (accepts : MetricKind → Bool) (expected : String) :
    Except Fault i.Position := do
  let p ← i.resolve metric
  if accepts (i.kindAt p) then return p
  else throw (.metricKindMismatch i.type.name metric expected (i.kindAt p).label)

/-! Updates, in place and as values. -/

def changeSlot (i : Instance) (p : i.Position) (change : Counter → Counter) : Instance :=
  { i with slots := i.slots.set p.val (change i.slots[p.val]) }

/-- Changes the slot of a metric whose kind is one that `accepts` holds of. -/
def changeMetric (metric : String) (accepts : MetricKind → Bool) (expected : String)
    (change : Counter → Counter) : InPlace Fault Instance Unit := do
  let i ← get
  let p ← .ofResult (i.expect metric accepts expected)
  set (i.changeSlot p change)

def counterAdd (metric : String) (n : Int64) : InPlace Fault Instance Unit :=
  changeMetric metric MetricKind.isCounter "counter" fun c => (c.add n).2

def intCounterAdd (metric : String) (n : Int32) : InPlace Fault Instance Unit :=
  changeMetric metric (fun kind => kind = .intCounter) "int counter" fun c => (c.add n.toInt64).2

def longCounterAdd (metric : String) (n : Int64) : InPlace Fault Instance Unit :=
  changeMetric metric (fun kind => kind = .longCounter) "long counter" fun c => (c.add n).2

def gaugeSet (metric : String) (value : Binary64) : InPlace Fault Instance Unit :=
  changeMetric metric (fun kind => kind = .gauge) "gauge" fun c =>
    (c.exchange value.bits.toInt64).2

def incrementBy (i : Instance) (metric : String) (n : Int64) : Except Fault Instance :=
  (counterAdd metric n).final i

def increment (i : Instance) (metric : String) : Except Fault Instance := i.incrementBy metric 1

def incrementInt (i : Instance) (metric : String) (n : Int32) : Except Fault Instance :=
  (intCounterAdd metric n).final i

def incrementLong (i : Instance) (metric : String) (n : Int64) : Except Fault Instance :=
  (longCounterAdd metric n).final i

def setGauge (i : Instance) (metric : String) (value : Binary64) : Except Fault Instance :=
  (gaugeSet metric value).final i

/-! Values. -/

def readInt (i : Instance) (metric : String) : Except Fault Int32 := do
  let p ← i.expect metric (fun kind => kind = .intCounter) "int counter"
  return i.slots[p.val].value.toInt32

/-- The slot of a counter as it stands, of an int counter too. -/
def readLong (i : Instance) (metric : String) : Except Fault Int64 := do
  let p ← i.expect metric MetricKind.isCounter "counter"
  return i.slots[p.val].value

def storedValue (kind : MetricKind) (slot : Counter) : Binary64 :=
  match kind with
  | .intCounter => .ofInt slot.value.toInt32.toInt
  | .longCounter => .ofInt slot.value.toInt
  | .gauge => ⟨slot.value.toUInt64⟩
  | .derived .. => .zero

def quotient (numerator denominator : Binary64) : Binary64 :=
  if denominator.isZero then .zero else numerator.div denominator

/-- The value of a metric, unless it takes more levels of operands. A name that is no metric's counts as
zero. -/
def valueWithin? (i : Instance) (levels : Nat) (p : i.Position) : Option Binary64 :=
  match i.kindAt p with
  | .derived numerator denominator =>
      match levels with
      | 0 => none
      | levels + 1 => do
          let operand (name : String) :=
            (i.position? name).elim (some .zero) (i.valueWithin? levels)
          return quotient (← operand numerator) (← operand denominator)
  | kind => some (storedValue kind i.slots[p.val])

/-- Operands are metrics of the same instance, so that as many levels as there are metrics are enough for
whatever has a value. What is derived from itself has none and counts as zero here; to look for its value
would go on for ever. -/
def valueAt (i : Instance) (p : i.Position) : Binary64 :=
  (i.valueWithin? i.type.metrics.length p).getD .zero

def read (i : Instance) (metric : String) : Except Fault Binary64 := do
  let p ← i.resolve metric
  return i.valueAt p

def values (i : Instance) : List Binary64 :=
  (List.finRange i.type.metrics.length).map i.valueAt

def sample (i : Instance) (now : UInt64) : Sample := ⟨i.type.name, i.name, now, i.values⟩

end Instance

end Coordination
