import Coordination.Board.Basic
import Coordination.Remote.Dispatcher

/-!
The authoritative copy of every blackboard of a run, and the methods through which callers reach it.
The first argument of a method is the name of the board. Methods work on the host in place: whatever
one of them has changed by the time that it fails stays changed.
-/

namespace Coordination

structure Host where
  boards : Table String Board
  /-- Every board is filed under its own name. -/
  named : ∀ name board, boards.get? name = some board → board.name = name
  deriving DecidableEq

namespace Host

def empty : Host where
  boards := .empty
  named := by simp

instance : Inhabited Host := ⟨empty⟩

/-- Class name that a host is registered under. -/
def className : String := "hydra.Blackboard"

def boardNames (h : Host) : List String := h.boards.keys

def board (h : Host) (name : String) : Except Fault Board :=
  match h.boards.get? name with
  | some board => .ok board
  | none => .error (.unknownBoard name)

def replaceBoard (h : Host) (board : Board) : Host where
  boards := h.boards.insert board.name board
  named := by
    intro name other found
    rw [Table.get?_insert] at found
    split at found
    · rename_i same
      cases found
      exact same.symm
    · exact h.named name other found

/-- Makes sure that a board of this name and schema is there. -/
def ensureBoard (name : String) (schema : Schema) : InPlace Fault Host Unit := do
  let h ← get
  match h.boards.get? name with
  | some board => if board.schema = schema then return () else throw (.schemaMismatch name)
  | none => set (h.replaceBoard (.fresh name schema))

def attach (h : Host) (name : String) (schema : Schema) : Except Fault Host :=
  (ensureBoard name schema).final h

/-! Methods. -/

inductive Method where
  | attach
  | counterAdd
  | counterRead
  | counterRaise
  | counterZero
  | counterReadAll
  | mapPut
  | mapGet
  | mapContains
  | mapClear
  | mapSize
  | mapSnapshot
  | lock
  | unlock
  deriving DecidableEq, Repr

def Method.name : Method → String
  | .attach => "attach"
  | .counterAdd => "counter_add"
  | .counterRead => "counter_read"
  | .counterRaise => "counter_set_if_larger"
  | .counterZero => "counter_zero"
  | .counterReadAll => "counter_read_all"
  | .mapPut => "map_put"
  | .mapGet => "map_get"
  | .mapContains => "map_contains"
  | .mapClear => "map_clear"
  | .mapSize => "map_size"
  | .mapSnapshot => "map_snapshot"
  | .lock => "lock"
  | .unlock => "unlock"

def Method.all : List Method :=
  [.attach, .counterAdd, .counterRead, .counterRaise, .counterZero, .counterReadAll, .mapPut,
    .mapGet, .mapContains, .mapClear, .mapSize, .mapSnapshot, .lock, .unlock]

def Method.ofName? (name : String) : Option Method := all.find? fun m => m.name == name

def intJson (n : Int64) : Json := .integer n.toInt

/-- What goes wrong on a board or a host, as callers are told of it. -/
def raising {σ α : Type} (x : InPlace Fault σ α) : InPlace Refusal σ α := x.mapFailure .ofFault

open Json Decoder in
/-- What a method other than `attach` does to a board. There is no answer yet while a lock has to be
waited for. -/
def carryOut (method : Method) (args : List Json) : InPlace Refusal Board (Option Json) :=
  let arg {α : Type} (decode : Decoder α) (index : Nat) : InPlace Refusal Board α :=
    .ofResult (argument decode args index method.name)
  match method with
  | .counterAdd => do
      let id ← arg CounterId.decoder 1
      let delta ← arg int64 2
      let sum ← raising (Board.counterAdd id delta)
      return some (intJson sum)
  | .counterRead => do
      let id ← arg CounterId.decoder 1
      let b ← get
      let value ← raising (.ofResult (b.readCounter id))
      return some (intJson value)
  | .counterRaise => do
      let id ← arg CounterId.decoder 1
      let candidate ← arg int64 2
      let larger ← raising (Board.counterRaise id candidate)
      return some (.bool larger)
  | .counterZero => do
      let id ← arg CounterId.decoder 1
      let previous ← raising (Board.counterZero id)
      return some (intJson previous)
  | .counterReadAll => do
      let b ← get
      return some (.array (b.counters.values.map intJson))
  | .mapPut => do
      let key ← arg string 1
      let value ← arg json 2
      modify fun b => (b.put key value).2
      return some .null
  | .mapGet => do
      let key ← arg string 1
      let b ← get
      return some (.array [.bool (b.entries.contains key), (b.entries.get? key).getD .null])
  | .mapContains => do
      let key ← arg string 1
      let b ← get
      return some (.bool (b.entries.contains key))
  | .mapClear => do
      modify Board.clear
      return some .null
  | .mapSize => do
      let b ← get
      return some (.ofNat b.entries.size)
  | .mapSnapshot => do
      let b ← get
      return some (.array (b.entries.snapshot.map fun (key, v) => .array [.string key, v]))
  | .lock => do
      let lock ← arg string 1
      let owner ← arg string 2
      let timeout ← arg (option uint64) 3
      let taken ← raising (Board.lock lock owner timeout)
      return if taken then some .null else none
  | .unlock => do
      let lock ← arg string 1
      let owner ← arg string 2
      raising (Board.unlock lock owner)
      return some .null
  | .attach => throw (.unknownMethod className method.name)

/-- Works on the board of this name where it is. -/
def onBoard {α : Type} (name : String) (work : InPlace Refusal Board α) : InPlace Refusal Host α := do
  let h ← get
  let b ← raising (.ofResult (h.board name))
  let (result, after) := work.on b
  set (h.replaceBoard after)
  .ofResult result

def attachBoard (name : String) (args : List Json) : InPlace Refusal Host (Option Json) := do
  let schema ← .ofResult (argument Schema.decoder args 1 Method.attach.name)
  raising (ensureBoard name schema)
  return some .null

def handle (method : String) (args : List Json) : InPlace Refusal Host (Option Json) := do
  let name ← .ofResult (argument Json.Decoder.string args 0 method)
  match Method.ofName? method with
  | some .attach => attachBoard name args
  | some found => onBoard name (carryOut found args)
  | none => onBoard name (throw (.unknownMethod className method))

/-- A held lock is waited for until the time for it is up; nothing else takes any time. -/
def waited (refusal : Refusal) : Nat :=
  match Fault.ofFailure refusal.failure with
  | .lockNotAcquired _ _ timeout => timeout.toNat
  | _ => 0

/-- How a call has ended, with the host as it was left. -/
def reaction? : Except Refusal (Option Json) × Host → Option (Reaction Host)
  | (.ok none, _) => none
  | (.ok (some v), after) => some (.answer (.ok v) after)
  | (.error refusal, after) => some ⟨.answered (.error refusal), after, waited refusal⟩

def perform (h : Host) (method : String) (args : List Json) : Option (Reaction Host) :=
  reaction? ((handle method args).on h)

instance : Servant Host := ⟨perform⟩

/-- Puts a fresh host behind its class name. -/
def install (d : Dispatcher Host) : Dispatcher Host := d.registerClass className empty

end Host

end Coordination
