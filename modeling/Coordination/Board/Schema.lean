import Coordination.Fault
import Coordination.Text.Repeated

/-!
What a blackboard declares: its counters, numbered in the order of their declaration, and its locks.
-/

namespace Coordination

structure CounterId where
  number : UInt16
  deriving DecidableEq, Repr

namespace CounterId

def text (id : CounterId) : String := s!"#{id.number}"

def toJson (id : CounterId) : Json := .ofNat id.number.toNat

def decoder : Json.Decoder CounterId := fun v => mk <$> Json.Decoder.uint16 v

end CounterId

structure Schema where
  counters : List String
  locks : List String
  deriving DecidableEq, Inhabited

namespace Schema

def counterCount (s : Schema) : Nat := s.counters.length

def counterId? (s : Schema) (name : String) : Option CounterId :=
  (s.counters.findIdx? fun counter => counter == name).map fun index => ⟨.ofNat index⟩

def counterName? (s : Schema) (id : CounterId) : Option String := s.counters[id.number.toNat]?

def hasCounter (s : Schema) (id : CounterId) : Bool := decide (id.number.toNat < s.counterCount)

def hasLock (s : Schema) (name : String) : Bool := s.locks.contains name

/-! Declarations. -/

inductive Declaration where
  | counter (name : String)
  | lock (name : String)
  deriving DecidableEq

def Declaration.counter? : Declaration → Option String
  | .counter name => some name
  | .lock _ => none

def Declaration.lock? : Declaration → Option String
  | .counter _ => none
  | .lock name => some name

inductive Flaw where
  | tooManyCounters (count : Nat)
  | repeatedCounter (name : String)
  | repeatedLock (name : String)
  deriving DecidableEq

/-- Largest number of counters; their identifiers are words of 16 bits. -/
def maxCounters : Nat := 65535

def Flaw.message : Flaw → String
  | .tooManyCounters count => s!"too many counters: {count} (max {maxCounters})"
  | .repeatedCounter name => s!"duplicate counter name '{name}'"
  | .repeatedLock name => s!"duplicate lock name '{name}'"

def Flaw.fault (flaw : Flaw) : Fault := .invalidConfiguration flaw.message

def ofDeclarations (declarations : List Declaration) : Except Flaw Schema :=
  let counters := declarations.filterMap Declaration.counter?
  let locks := declarations.filterMap Declaration.lock?
  if maxCounters < counters.length then .error (.tooManyCounters counters.length)
  else
    match Text.firstRepeated? counters, Text.firstRepeated? locks with
    | some name, _ => .error (.repeatedCounter name)
    | none, some name => .error (.repeatedLock name)
    | none, none => .ok ⟨counters, locks⟩

/-! Schemas put together step by step; one step may declare several counters. -/

inductive Step where
  | counter (name : String)
  | counters (names : List String)
  | lock (name : String)
  deriving DecidableEq

namespace Step

def counterNames : Step → List String
  | .counter name => [name]
  | .counters names => names
  | .lock _ => []

def lockNames : Step → List String
  | .counter _ | .counters _ => []
  | .lock name => [name]

def declarations : Step → List Declaration
  | .counter name => [.counter name]
  | .counters names => names.map .counter
  | .lock name => [.lock name]

end Step

def ofSteps (steps : List Step) : Except Flaw Schema :=
  ofDeclarations (steps.flatMap Step.declarations)

/-! JSON form. -/

def namesJson (names : List String) : Json := .array (names.map .string)

def toJson (s : Schema) : Json :=
  .object [("counters", namesJson s.counters), ("locks", namesJson s.locks)]

open Json Decoder in
def decoder : Decoder Schema :=
  Record.decode "struct BlackboardSchema"
    (mk <$> Record.required "counters" (list string) <*> Record.required "locks" (list string))

end Schema

end Coordination
