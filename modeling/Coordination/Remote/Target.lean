import Coordination.Json.Decoder

/-! Whom a remote call is for: the handler of a class, or a live object. -/

namespace Coordination

inductive Target where
  | ofClass (name : String)
  | object (id : String)
  deriving DecidableEq, Repr, Inhabited

namespace Target

def text : Target → String
  | .ofClass name => "class:" ++ name
  | .object id => "object:" ++ id

def toJson : Target → Json
  | .ofClass name => .object [("Class", .string name)]
  | .object id => .object [("Object", .string id)]

open Json Decoder in
def decoder : Decoder Target :=
  oneOf [
    ("Class", Case.wrap fun v => ofClass <$> string v),
    ("Object", Case.wrap fun v => object <$> string v)]

end Target

end Coordination
