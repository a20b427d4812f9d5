import Coordination.Board.Operation

/-!
Work on a board, one operation after another. It can be done through a handle in one go, or step by
step with others coming in between.
-/

namespace Coordination

inductive Work (α : Type) where
  | ended (result : Except Fault α)
  | operate (operation : Operation) (next : Except Fault Answer → Work α)

namespace Work

variable {ω α β : Type}

/-- Goes on after the work has ended, well or not. -/
def andThen : Work α → (Except Fault α → Work β) → Work β
  | .ended result, rest => rest result
  | .operate operation next, rest => .operate operation fun answer => (next answer).andThen rest

def run (h : Handle ω) : Work α → Access ω α
  | .ended result => ExceptT.mk (pure result)
  | .operate operation next => ExceptT.mk do
      let answer ← (operation.perform h).run
      ((next answer).run h).run

/-! Holding a lock. -/

/-- A failure of the body goes before one of giving the lock back. -/
def settled (result : Except Fault α) (unlocked : Except Fault Answer) : Except Fault α :=
  match result, unlocked with
  | .error fault, _ => .error fault
  | .ok _, .error fault => .error fault
  | .ok a, .ok _ => .ok a

def giveBack (lock : String) (result : Except Fault α) : Work α :=
  .operate (.unlock lock) fun unlocked => .ended (settled result unlocked)

def withLock (lock : String) (body : Work α) : Work α :=
  .operate (.lock lock) fun
    | .error fault => .ended (.error fault)
    | .ok _ => body.andThen (giveBack lock)

/-! Counting in an entry. -/

/-- The number that an entry shows, an absent one counting as zero. -/
def shownNumber : Answer → Except Fault Int64
  | .found (some value) => Handle.decoded Json.Decoder.int64 value
  | _ => .ok 0

/-- Puts the next number in the place of the one that has been read. -/
def putNext (key : Json) (read : Except Fault Answer) : Work Unit :=
  match read >>= shownNumber with
  | .error fault => .ended (.error fault)
  | .ok n => .operate (.put key (Host.intJson (n + 1))) fun put => .ended ((fun _ => ()) <$> put)

def countUp (key : Json) : Work Unit := .operate (.get key) (putNext key)

end Work

end Coordination
