import Coordination.Statistics.Archive

/-!
Statistics of a whole run, put together from the archives of its processes. For every metric the last
values of all instances are summed, and so are the spans between their least and greatest values.
-/

namespace Coordination

/-- A span of time in milliseconds, both ends included. -/
structure TimeWindow where
  startMs : UInt64
  endMs : UInt64
  deriving DecidableEq, Repr

namespace TimeWindow

def checked (startMs endMs : UInt64) : Except Fault TimeWindow :=
  if endMs < startMs then
    .error (.invalidConfiguration s!"window start {startMs} is after window end {endMs}")
  else .ok ⟨startMs, endMs⟩

def contains (w : TimeWindow) (ms : UInt64) : Bool := decide (w.startMs ≤ ms ∧ ms ≤ w.endMs)

def toJson (w : TimeWindow) : Json :=
  .object [("start_ms", .ofNat w.startMs.toNat), ("end_ms", .ofNat w.endMs.toNat)]

end TimeWindow

/-- Name of an instance among those of all processes. -/
structure SeriesKey where
  host : String
  processId : UInt32
  instanceName : String
  deriving DecidableEq, Repr

namespace SeriesKey

instance : Ord SeriesKey :=
  ⟨compareLex (compareOn host) (compareLex (compareOn processId) (compareOn instanceName))⟩

instance : Std.TransOrd SeriesKey :=
  inferInstanceAs (Std.TransCmp
    (compareLex (compareOn host) (compareLex (compareOn processId) (compareOn instanceName))))

theorem eq_of_compare {a b : SeriesKey} (same : compare a b = .eq) : a = b := by
  have fields : compareLex (compareOn host)
      (compareLex (compareOn processId) (compareOn instanceName)) a b = .eq := same
  simp [compareLex, compareOn, Ordering.then_eq_eq] at fields
  cases a; cases b; simp_all

instance : Std.LawfulEqOrd SeriesKey where
  eq_of_compare := eq_of_compare
  compare_self := Std.ReflCmp.compare_self

end SeriesKey

structure MetricAggregate where
  typeName : String
  metric : String
  unit : String
  largerIsBetter : Bool
  instances : Nat
  sum : Binary64
  mean : Binary64
  maxMinusMin : Binary64
  deriving DecidableEq, Repr

structure AggregateReport where
  archives : Nat
  window : Option TimeWindow
  metrics : List MetricAggregate
  deriving DecidableEq, Repr

namespace AggregateReport

def metric? (r : AggregateReport) (typeName metric : String) : Option MetricAggregate :=
  r.metrics.find? fun m => m.typeName == typeName && m.metric == metric

/-! Types. -/

/-- Adds a type to those known, among which one of its name has to be the same. -/
def mergeType (types : Table String StatisticsType) (t : StatisticsType) :
    Except Fault (Table String StatisticsType) :=
  match types.get? t.name with
  | some known => if known = t then .ok types else .error (.descriptorMismatch t.name)
  | none => .ok (types.insert t.name t)

def mergedTypes (archives : List Archive) : Except Fault (Table String StatisticsType) :=
  (archives.flatMap (·.types)).foldlM mergeType .empty

/-! Series of samples. -/

abbrev Series := List Sample

/-- Whether a sample counts for a type. -/
def counts (t : StatisticsType) (window : Option TimeWindow) (s : Sample) : Bool :=
  s.typeName == t.name && window.all (·.contains s.timestampMs) &&
    s.values.length == t.metrics.length

/-- Samples that count, under the names of their instances. -/
def countedSamples (t : StatisticsType) (window : Option TimeWindow) (archives : List Archive) :
    List (SeriesKey × Sample) :=
  archives.flatMap fun a =>
    (a.samples.filter (counts t window)).map fun s => (⟨a.host, a.processId, s.instanceName⟩, s)

/-- Samples of each instance in the order of their times; among equal times the order stays. -/
def seriesOf (samples : List (SeriesKey × Sample)) : Table SeriesKey Series :=
  samples.foldl (fun series (key, s) => series.modify key [] (· ++ [s])) .empty

def inOrder (s : Series) : Series := s.mergeSort fun a b => decide (a.timestampMs ≤ b.timestampMs)

/-! Metrics. -/

def valueAt (index : Nat) (s : Sample) : Binary64 := s.values[index]?.getD .zero

/-- Least and greatest value of a metric in a series. -/
def bounds (index : Nat) (s : Series) : Binary64 × Binary64 :=
  s.foldl (fun (low, high) sample =>
    (low.min (valueAt index sample), high.max (valueAt index sample)))
    (.infinity, .negativeInfinity)

def span (index : Nat) (s : Series) : Binary64 :=
  let (low, high) := bounds index s
  high.sub low

def lastValue (index : Nat) (s : Series) : Binary64 := s.getLast?.elim .zero (valueAt index)

def total (values : List Binary64) : Binary64 := values.foldl Binary64.add .zero

def foldMetric (t : StatisticsType) (series : List Series) (m : Metric) (index : Nat) :
    MetricAggregate :=
  let sum := total (series.map (lastValue index))
  { typeName := t.name
    metric := m.name
    unit := m.unit
    largerIsBetter := m.largerIsBetter
    instances := series.length
    sum := sum
    mean := if series.isEmpty then .zero else sum.div (.ofNat series.length)
    maxMinusMin := total (series.map (span index)) }

def foldType (archives : List Archive) (window : Option TimeWindow) (t : StatisticsType) :
    List MetricAggregate :=
  let series := (seriesOf (countedSamples t window archives)).values.map inOrder
  t.metrics.zipIdx.map fun (m, index) => foldMetric t series m index

/-- The report on a list of archives, over a window or the whole run. -/
def ofArchives (archives : List Archive) (window : Option TimeWindow) :
    Except Fault AggregateReport := do
  let types ← mergedTypes archives
  return ⟨archives.length, window, types.values.flatMap (foldType archives window)⟩

end AggregateReport

end Coordination
