import Coordination.Binary64

/-! TOML values. Only the shape of a date or time is kept. -/

namespace Coordination

inductive Toml where
  | string (s : String)
  | integer (n : Int)
  | real (x : Binary64)
  | bool (b : Bool)
  | moment
  | array (items : List Toml)
  | table (entries : List (String × Toml))
  deriving Inhabited

end Coordination
