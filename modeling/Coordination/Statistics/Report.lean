import Coordination.Calendar
import Coordination.Json.Text
import Coordination.Statistics.Aggregate
import Coordination.Text.Columns

/-! Reports as tables for people and as JSON documents. -/

namespace Coordination.AggregateReport

open Text

/-! Tables. -/

def rule : String := String.ofList (List.replicate 59 '═')

def windowText : Option TimeWindow → String
  | none => "whole run"
  | some w => Calendar.formatMillis w.startMs ++ " .. " ++ Calendar.formatMillis w.endMs

def row (metric instances sum mean span unit : String) : String :=
  s!"  {alignLeft 24 metric} {alignRight 9 instances} {alignRight 16 sum} " ++
    s!"{alignRight 16 mean} {alignRight 16 span}  {unit}\n"

def heading (typeName : String) : String :=
  typeName ++ ":\n" ++ row "metric" "instances" "sum" "mean" "max-min" "unit"

def metricRow (m : MetricAggregate) : String :=
  let polarity := if m.largerIsBetter then "+" else "-"
  row m.metric (toString m.instances) (m.sum.fixed 2) (m.mean.fixed 2) (m.maxMinusMin.fixed 2)
    s!"{m.unit} ({polarity})"

/-- Rows of metrics, with a heading where the type is another one than before. -/
def rows (before : Option String) : List MetricAggregate → String
  | [] => ""
  | m :: rest =>
      let start := if before = some m.typeName then "" else heading m.typeName
      start ++ metricRow m ++ rows (some m.typeName) rest

def text (r : AggregateReport) : String :=
  rule ++ "\n                  STATISTICS REPORT\n" ++ rule ++ "\n" ++
    s!"Archives: {r.archives}\nWindow:   {windowText r.window}\n\n" ++ rows none r.metrics ++
    (if r.metrics.isEmpty then "No statistics found.\n" else "")

/-! JSON documents. -/

def toolName : String := "hydra-coord"

def toolVersion : String := "0.1.0"

/-- Where and when a document was made. -/
structure Origin where
  generatedAt : String
  generatedBy : String

def Origin.toJson (o : Origin) : Json :=
  .object [("tool", .string toolName), ("version", .string toolVersion),
    ("generated_at", .string o.generatedAt), ("generated_by", .string o.generatedBy)]

def metricJson (m : MetricAggregate) : Json :=
  .object [("type_name", .string m.typeName), ("metric", .string m.metric),
    ("unit", .string m.unit), ("larger_is_better", .bool m.largerIsBetter),
    ("instances", .ofNat m.instances), ("sum", .ofReal m.sum), ("mean", .ofReal m.mean),
    ("max_minus_min", .ofReal m.maxMinusMin)]

def document (origin : Origin) (r : AggregateReport) : Json :=
  .object [("metadata", origin.toJson), ("archives", .ofNat r.archives),
    ("window", Json.ofOption TimeWindow.toJson r.window),
    ("metrics", .array (r.metrics.map metricJson))]

def documentText (origin : Origin) (r : AggregateReport) : String :=
  (r.document origin).indentedText

end Coordination.AggregateReport
