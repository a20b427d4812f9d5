import Coordination.Binary64
import Coordination.Table

/-!
How long the calls of a task took. Latencies are counted in whole microseconds, none below 1; those
past the trackable range count as the nominal top of the histogram.
-/

namespace Coordination

structure Latencies where
  counts : Table Nat Nat

namespace Latencies

def empty : Latencies := ⟨.empty⟩

instance : Inhabited Latencies := ⟨empty⟩

def trackable : Nat := 2047

def nominalTop : Nat := 2

/-- Value that a duration is recorded as. -/
def recorded (nanoseconds : Nat) : Nat :=
  let micros := max (nanoseconds / 1000) 1
  if micros ≤ trackable then micros else nominalTop

def record (l : Latencies) (nanoseconds : Nat) : Latencies :=
  ⟨l.counts.modify (recorded nanoseconds) 0 (· + 1)⟩

def calls (l : Latencies) : Nat := l.counts.values.foldl (· + ·) 0

def least (l : Latencies) : Nat := l.counts.keys.head?.getD 0

def greatest (l : Latencies) : Nat := l.counts.keys.getLast?.getD 0

/-- Mean, as a sum over the distinct values in rising order. -/
def mean (l : Latencies) : Binary64 :=
  let total := Binary64.ofNat l.calls
  l.counts.entries.foldl (fun sum (value, count) =>
    sum.add (((Binary64.ofNat value).mul (.ofNat count)).div total)) .zero

/-- Least value whose rank, counted with all lesser ones, reaches `rank`. -/
def valueAtRank (rank : Nat) : List (Nat × Nat) → Nat
  | [] => 0
  | [(value, _)] => value
  | (value, count) :: rest => if rank ≤ count then value else valueAtRank (rank - count) rest

def quantile (l : Latencies) (q : Binary64) : Nat :=
  valueAtRank (max (q.mul (.ofNat l.calls)).ceilNat 1) l.counts.entries

/-- The quantiles that a summary shows. -/
def median (l : Latencies) : Nat := l.quantile (.ofDecimal false 5 (-1))

def percentile99 (l : Latencies) : Nat := l.quantile (.ofDecimal false 99 (-2))

end Latencies

end Coordination
