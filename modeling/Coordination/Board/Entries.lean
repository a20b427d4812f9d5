import Coordination.Json.Text
import Coordination.Table

/-! The shared map of a blackboard. Entries are filed under the canonical texts of their keys. -/

namespace Coordination

/-- Text that a key is filed under: keys that are the same value up to the order of members have the
same text. -/
def keyText (key : Json) : String := key.normalized.text

abbrev Entries := Table String Json

namespace Entries

/-- Files `value` under `key`; answers the value in its place before. -/
def put (entries : Entries) (key : String) (value : Json) : Option Json × Entries :=
  (entries.get? key, entries.insert key value)

def snapshot (entries : Entries) : List (String × Json) := entries.entries

@[simp] theorem put_fst (entries : Entries) (key : String) (value : Json) :
    (entries.put key value).1 = entries.get? key := rfl

@[simp] theorem get?_put_self (entries : Entries) (key : String) (value : Json) :
    (entries.put key value).2.get? key = some value := Table.get?_insert_self entries key value

end Entries

end Coordination
