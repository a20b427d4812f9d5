import Coordination.Statistics.History

/-!
Updates of one instance, one after another, and what each of its metrics should come to by them.
-/

namespace Coordination

namespace Instance

namespace Update

def metric : Update → String
  | .increment metric | .incrementBy metric _ | .incrementInt metric _ | .incrementLong metric _
  | .setGauge metric _ => metric

/-- The kinds that it is for, in words. -/
def wanted : Update → String
  | .increment _ | .incrementBy .. => "counter"
  | .incrementInt .. => "int counter"
  | .incrementLong .. => "long counter"
  | .setGauge .. => "gauge"

def accepts : Update → MetricKind → Bool
  | .increment _, .intCounter | .increment _, .longCounter => true
  | .incrementBy .., .intCounter | .incrementBy .., .longCounter => true
  | .incrementInt .., .intCounter => true
  | .incrementLong .., .longCounter => true
  | .setGauge .., .gauge => true
  | _, _ => false

/-- What it adds to a counter. -/
def amount : Update → Int
  | .increment _ => 1
  | .incrementBy _ n | .incrementLong _ n => n.toInt
  | .incrementInt _ n => n.toInt
  | .setGauge .. => 0

/-- The value that it gives to the gauge of this name. -/
def setting? (gauge : String) : Update → Option Binary64
  | .setGauge metric value => if metric = gauge then some value else none
  | _ => none

/-- What it makes of a slot. -/
def effect : Update → Int64 → Int64
  | .increment _, slot => slot + 1
  | .incrementBy _ n, slot | .incrementLong _ n, slot => slot + n
  | .incrementInt _ n, slot => slot + n.toInt64
  | .setGauge _ value, _ => value.bits.toInt64

end Update

/-- The instance after an update, whether or not that is refused. -/
def attempt (i : Instance) (u : Update) : Instance := u.inPlace.left i

def after (i : Instance) (updates : List Update) : Instance := updates.foldl attempt i

/-- What is in the slot of a metric, by its place. -/
def stored? (i : Instance) (index : Nat) : Option Int64 := i.slots[index]?.map (·.value)

end Instance

namespace Metric

open Instance (Update)

/-- The update is for this metric, and for its kind. -/
def takes (m : Metric) (u : Update) : Bool := u.metric = m.name && u.accepts m.kind

/-- Everything that is added to a counter. -/
def deltas (m : Metric) (updates : List Update) : List Int := (updates.filter m.takes).map (·.amount)

/-- The last value that a gauge is set to, zero if it never is. -/
def lastSet (m : Metric) (updates : List Update) : Binary64 :=
  (updates.filterMap (·.setting? m.name)).getLastD .zero

end Metric

end Coordination
