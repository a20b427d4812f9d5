import Coordination.Fault
import Coordination.Text.Repeated

/-!
Statistics types: named lists of metrics, each with a unit and a kind. A derived metric is the quotient
of two others that are stored.
-/

namespace Coordination

inductive MetricKind where
  | intCounter
  | longCounter
  | gauge
  | derived (numerator denominator : String)
  deriving DecidableEq, Repr

namespace MetricKind

def label : MetricKind → String
  | .intCounter => "int counter"
  | .longCounter => "long counter"
  | .gauge => "gauge"
  | .derived .. => "derived"

def isCounter : MetricKind → Bool
  | .intCounter | .longCounter => true
  | .gauge | .derived .. => false

def isStored : MetricKind → Bool
  | .derived .. => false
  | _ => true

def toJson : MetricKind → Json
  | .intCounter => .string "IntCounter"
  | .longCounter => .string "LongCounter"
  | .gauge => .string "Gauge"
  | .derived numerator denominator =>
      .object [("Derived", .object
        [("numerator", .string numerator), ("denominator", .string denominator)])]

open Json Decoder in
def decoder : Decoder MetricKind :=
  oneOf [
    ("IntCounter", Case.unit .intCounter),
    ("LongCounter", Case.unit .longCounter),
    ("Gauge", Case.unit .gauge),
    ("Derived", Case.record
      (derived <$> Record.required "numerator" string <*> Record.required "denominator" string))]

end MetricKind

structure Metric where
  name : String
  unit : String
  largerIsBetter : Bool
  kind : MetricKind
  deriving DecidableEq, Repr

namespace Metric

def toJson (m : Metric) : Json :=
  .object [("name", .string m.name), ("unit", .string m.unit),
    ("larger_is_better", .bool m.largerIsBetter), ("kind", m.kind.toJson)]

open Json Decoder in
def decoder : Decoder Metric :=
  Record.decode "a metric"
    (mk <$> Record.required "name" string <*> Record.required "unit" string
      <*> Record.required "larger_is_better" bool <*> Record.required "kind" MetricKind.decoder)

end Metric

structure StatisticsType where
  name : String
  metrics : List Metric
  deriving DecidableEq, Repr

namespace StatisticsType

def index? (t : StatisticsType) (metric : String) : Option Nat :=
  t.metrics.findIdx? fun m => m.name == metric

def metric? (t : StatisticsType) (metric : String) : Option Metric :=
  t.metrics.find? fun m => m.name == metric

/-! Checked types. -/

inductive Flaw where
  | repeatedMetric (typeName metric : String)
  | notStored (metric typeName operand : String)
  deriving DecidableEq

def Flaw.message : Flaw → String
  | .repeatedMetric typeName metric =>
      s!"statistics type '{typeName}' declares metric '{metric}' twice"
  | .notStored metric typeName operand =>
      s!"derived metric '{metric}' of '{typeName}' refers to '{operand}', which is not a stored metric"

def Flaw.fault (flaw : Flaw) : Fault := .invalidConfiguration flaw.message

def stores (metrics : List Metric) (name : String) : Bool :=
  metrics.any fun m => m.name == name && m.kind.isStored

def operands : MetricKind → List String
  | .derived numerator denominator => [numerator, denominator]
  | _ => []

/-- First derived metric with an operand that is not stored, and the operand. -/
def firstNotStored? (metrics : List Metric) : Option (String × String) :=
  metrics.findSome? fun m =>
    ((operands m.kind).find? fun operand => !stores metrics operand).map fun operand =>
      (m.name, operand)

def ofMetrics (name : String) (metrics : List Metric) : Except Flaw StatisticsType :=
  match Text.firstRepeated? (metrics.map (·.name)), firstNotStored? metrics with
  | some metric, _ => .error (.repeatedMetric name metric)
  | none, some (metric, operand) => .error (.notStored metric name operand)
  | none, none => .ok ⟨name, metrics⟩

/-! JSON form. -/

def toJson (t : StatisticsType) : Json :=
  .object [("name", .string t.name), ("descriptors", .array (t.metrics.map Metric.toJson))]

open Json Decoder in
def decoder : Decoder StatisticsType :=
  Record.decode "a statistics type"
    (mk <$> Record.required "name" string <*> Record.required "descriptors" (list Metric.decoder))

end StatisticsType

end Coordination
