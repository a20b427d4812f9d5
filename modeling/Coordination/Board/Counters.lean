import Coordination.Board.Schema
import Coordination.Counter

/-! The counters of a blackboard, by number. -/

namespace Coordination

abbrev Counters (count : Nat) := Vector Counter count

namespace Counters

variable {count : Nat}

def fresh (count : Nat) : Counters count := .replicate count .zero

def values (counters : Counters count) : List Int64 := counters.toList.map (·.value)

def read? (counters : Counters count) (id : CounterId) : Option Int64 :=
  counters[id.number.toNat]?.map (·.value)

/-- Applies an operation to one counter; nothing comes of a number that is not in use. -/
def change? (operation : Counter → Int64 × Counter) (counters : Counters count) (id : CounterId) :
    Option (Int64 × Counters count) :=
  if bound : id.number.toNat < count then
    let (answer, counter) := operation counters[id.number.toNat]
    some (answer, counters.set id.number.toNat counter)
  else none

end Counters

end Coordination
