import Coordination.Board.Basic

/-!
Callers taking turns at the locks of a board. A caller that finds a lock held waits and looks again
later. Whether its time is up by then is for the clock to say, so it comes with the event.
-/

namespace Coordination

/-- What a caller asks for that wants a lock. -/
structure Attempt where
  lock : String
  owner : String
  timeout : Option UInt64
  deriving DecidableEq

structure Turns where
  board : Board
  waiting : List Attempt

namespace Turns

inductive Event where
  /-- A caller comes and looks for the first time. -/
  | arrive (attempt : Attempt) (late : Bool)
  /-- The waiting caller at this place looks again. -/
  | look (place : Nat) (late : Bool)
  | release (lock owner : String)
  | ask (lock : String)
  deriving DecidableEq

/-- What comes of an event. -/
inductive Notice where
  | acquired (lock owner : String)
  | waits (attempt : Attempt)
  | refused (attempt : Attempt) (fault : Fault)
  | released (lock owner : String)
  | kept (lock owner : String) (fault : Fault)
  | told (lock : String) (answer : Except Fault (Option String))
  | nobody

/-- One look at a lock: it is taken if it is free, and given up only by a caller that is late. -/
def attemptOn (b : Board) (a : Attempt) (late : Bool) : Notice × Board :=
  match b.acquire a.lock a.owner (if late then a.timeout else none) with
  | none => (.waits a, b)
  | some (.ok after) => (.acquired a.lock a.owner, after)
  | some (.error fault) => (.refused a fault, b)

def arrive (t : Turns) (a : Attempt) (late : Bool) : Notice × Turns :=
  match attemptOn t.board a late with
  | (.waits a, board) => (.waits a, ⟨board, t.waiting ++ [a]⟩)
  | (notice, board) => (notice, { t with board })

def lookAgain (t : Turns) (place : Nat) (a : Attempt) (late : Bool) : Notice × Turns :=
  match attemptOn t.board a late with
  | (.waits a, board) => (.waits a, { t with board })
  | (notice, board) => (notice, ⟨board, t.waiting.eraseIdx place⟩)

def step (t : Turns) : Event → Notice × Turns
  | .arrive a late => t.arrive a late
  | .look place late =>
      match t.waiting[place]? with
      | none => (.nobody, t)
      | some a => t.lookAgain place a late
  | .release lock owner =>
      match t.board.release lock owner with
      | .ok board => (.released lock owner, { t with board })
      | .error fault => (.kept lock owner fault, t)
  | .ask lock => (.told lock (t.board.holder lock), t)

/-- What comes of the events one after another, and where that leads. -/
def run (t : Turns) : List Event → List Notice × Turns
  | [] => ([], t)
  | event :: rest =>
      let (notice, next) := t.step event
      let (notices, final) := next.run rest
      (notice :: notices, final)

/-- The attempt that an event makes, and whether it is late. -/
def attempt? (t : Turns) : Event → Option (Attempt × Bool)
  | .arrive a late => some (a, late)
  | .look place late => t.waiting[place]?.map fun a => (a, late)
  | .release .. | .ask _ => none

/-- The lock that an event is about. -/
def lock? (t : Turns) : Event → Option String
  | .arrive a _ => some a.lock
  | .look place _ => t.waiting[place]?.map (·.lock)
  | .release lock _ | .ask lock => some lock

/-! Histories. -/

def Notice.fault? : Notice → Option Fault
  | .refused _ fault | .kept _ _ fault | .told _ (.error fault) => some fault
  | _ => none

/-- The holder that a notice gives to a lock, `some none` where it sets the lock free. -/
def Notice.change? (lock : String) : Notice → Option (Option String)
  | .acquired name owner => if name = lock then some (some owner) else none
  | .released name _ => if name = lock then some none else none
  | _ => none

/-- The last change of a lock's holder. -/
def lastChange? (lock : String) : List Notice → Option (Option String)
  | [] => none
  | notice :: later => (lastChange? lock later).or (notice.change? lock)

end Turns

end Coordination
