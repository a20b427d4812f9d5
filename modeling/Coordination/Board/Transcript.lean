import Coordination.Board.Gathering
import Coordination.Json.Plain
import Mathlib

/-!
What has happened on one board of a gathering: the operations that were answered there, in their
order, each with its answer. One that failed, or that is still waiting, has done nothing.
-/

namespace Coordination

/-- Nobody but the parties, through their handles, has to do with the board of this name. -/
def Request.Spares (name : String) : Request → Prop
  | .call _ args => args[0]? ≠ some (.string name)
  | .attach .. | .operate .. => True

instance (name : String) (request : Request) : Decidable (request.Spares name) :=
  match request with
  | .call .. => inferInstanceAs (Decidable (_ ≠ _))
  | .attach .. | .operate .. => isTrue trivial

def Request.IsOperation : Request → Prop
  | .operate .. => True
  | .attach .. | .call .. => False

abbrev Transcript := List (Operation × Answer)

namespace Transcript

/-- What a request adds to the transcript of the board of this name. -/
def noted? (name : String) : Request × Reply → Option (Operation × Answer)
  | (.operate _ board operation, some (.ok answer)) =>
      if board = name then some (operation, answer) else none
  | _ => none

def ofRun (name : String) (requests : List Request) (replies : List Reply) : Transcript :=
  (requests.zip replies).filterMap (noted? name)

def operations (t : Transcript) : List Operation := t.map (·.1)

end Transcript

/-- From `before`, a board comes to `after` by the operations of a transcript, each of which gives its
answer. -/
inductive Board.Undergoes (before : Board) : Transcript → Board → Prop where
  | nothing : Undergoes before [] before
  | operation {earlier : Transcript} {b after : Board} {owner : String}
      {lockTimeout : Option UInt64} {operation : Operation} {answer : Answer}
      (undergone : Undergoes before earlier b)
      (done : operation.onBoard owner lockTimeout b = some (.ok (answer, after))) :
      Undergoes before (earlier ++ [(operation, answer)]) after

/-! A counter, by what has been added to it. -/

namespace Operation

def delta? (id : CounterId) : Operation → Option Int64
  | .increment other | .incrementAndRead other => if other = id then some 1 else none
  | .incrementBy other delta | .addAndRead other delta => if other = id then some delta else none
  | .decrement other => if other = id then some (-1) else none
  | _ => none

/-- The operation may put another value in a counter's place. -/
def Overwrites (id : CounterId) : Operation → Prop
  | .setIfLarger other _ | .zero other => other = id
  | _ => False

/-- The operation answers the value that it leaves in a counter. -/
def Tells (id : CounterId) : Operation → Prop
  | .read other | .incrementAndRead other | .addAndRead other _ => other = id
  | _ => False

instance (id : CounterId) (operation : Operation) : Decidable (operation.Overwrites id) :=
  match operation with
  | .setIfLarger other _ | .zero other => inferInstanceAs (Decidable (other = id))
  | .increment _ | .incrementBy .. | .decrement _ | .read _ | .incrementAndRead _ | .addAndRead ..
  | .readAll | .put .. | .get _ | .containsKey _ | .clear | .size | .snapshot | .lock _
  | .lockWithin .. | .unlock _ => isFalse False.elim

end Operation

/-- On the board of this name, the request does not put another value in a counter's place. -/
def Request.AddsOnly (name : String) (id : CounterId) : Request → Prop
  | .operate _ board operation => board = name → ¬ operation.Overwrites id
  | .attach .. | .call .. => True

instance (name : String) (id : CounterId) (request : Request) :
    Decidable (request.AddsOnly name id) :=
  match request with
  | .operate .. => inferInstanceAs (Decidable (_ → ¬ _))
  | .attach .. | .call .. => isTrue trivial

namespace Transcript

def deltas (id : CounterId) (operations : List Operation) : List Int64 :=
  operations.filterMap (Operation.delta? id)

/-- Sum in two's complement of everything that has been added to a counter. -/
def sum (id : CounterId) (operations : List Operation) : Int64 :=
  .ofInt ((deltas id operations).map Int64.toInt).sum

/-- The sequence numbers that were handed out, in order. -/
def sequenceNumbers (id : CounterId) (t : Transcript) : List Int64 :=
  t.filterMap fun
    | (.incrementAndRead other, .number n) => if other = id then some n else none
    | _ => none

end Transcript

def Host.counter? (h : Host) (name : String) (id : CounterId) : Option Int64 :=
  (h.boards.get? name).bind fun b => b.counters.read? id

/-! A shared map, by what has been put into it. -/

/-- The value that a key stands for: the members of its objects are in ascending order, and null is in
the place of every real that has no text. -/
def keyValue (key : Json) : Json := key.normalized.plain

/-- What has been put into a shared map since it was last cleared, the latest first. -/
def Operation.post (posted : List (Json × Json)) : Operation → List (Json × Json)
  | .put key value => (keyValue key, value) :: posted
  | .clear => []
  | _ => posted

def Transcript.postings (operations : List Operation) : List (Json × Json) :=
  operations.foldl Operation.post []

end Coordination
