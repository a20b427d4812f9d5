import Coordination.Json.Basic

/-! How many arrays and objects stand inside one another. -/

namespace Coordination.Json

mutual
def nesting : Json → Nat
  | .array items => itemsNesting items + 1
  | .object members => membersNesting members + 1
  | .null | .bool _ | .integer _ | .real _ | .string _ => 0

/-- Nesting of the item that is nested most deeply. -/
def itemsNesting : List Json → Nat
  | [] => 0
  | x :: xs => max (nesting x) (itemsNesting xs)

def membersNesting : List (String × Json) → Nat
  | [] => 0
  | (_, x) :: xs => max (nesting x) (membersNesting xs)
end

end Coordination.Json
