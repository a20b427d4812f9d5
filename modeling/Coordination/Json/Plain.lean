import Coordination.Json.Basic

/-! The values that texts can tell. There is no text for a NaN or an infinity but that of null. -/

namespace Coordination.Json

mutual
/-- The value with null in the place of every real that has no text. -/
def plain : Json → Json
  | .real x => ofReal x
  | .array items => .array (plainItems items)
  | .object members => .object (plainMembers members)
  | .null => .null
  | .bool b => .bool b
  | .integer n => .integer n
  | .string s => .string s

def plainItems : List Json → List Json
  | [] => []
  | x :: xs => plain x :: plainItems xs

def plainMembers : List (String × Json) → List (String × Json)
  | [] => []
  | (k, x) :: xs => (k, plain x) :: plainMembers xs
end

end Coordination.Json
