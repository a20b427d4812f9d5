import Coordination.Fault

/-!
Things whose methods can be called from elsewhere. A method answers with a value or refuses; the
arguments of a call are JSON values by position.
-/

namespace Coordination

/-- Why a method has no value to give, with a structured cause where there is one. -/
structure Refusal where
  typeName : String
  message : String
  payload : Option Json
  deriving DecidableEq, Inhabited

namespace Refusal

def plain (typeName message : String) : Refusal := ⟨typeName, message, none⟩

def unknownMethod (target method : String) : Refusal :=
  plain "UnknownMethod" s!"{target} has no method '{method}'"

def unknownClass (name : String) : Refusal :=
  plain "UnknownTarget" s!"no class registered as '{name}'"

def unknownObject (id : String) : Refusal :=
  plain "UnknownTarget" s!"no object registered as '{id}'"

def badArguments (method detail : String) : Refusal :=
  plain "BadArguments" s!"{method}: {detail}"

def ofFault (fault : Fault) : Refusal := ⟨fault.kindName, fault.message, some fault.toJson.normalized⟩

def failure (r : Refusal) : Failure := .exception r.typeName r.message r.payload

end Refusal

/-- Decodes the argument of `method` at `index`. -/
def argument {α : Type} (decode : Json.Decoder α) (args : List Json) (index : Nat)
    (method : String) : Except Refusal α :=
  match args[index]? with
  | none =>
      .error (.badArguments method s!"missing argument {index} (got {args.length})")
  | some v =>
      match decode v with
      | .ok a => .ok a
      | .error e => .error (.badArguments method (s!"argument {index}: " ++ e.message))

inductive Ending where
  | answered (outcome : Except Refusal Json)
  | crashed (text : String)

/-- How a call ended, what it left behind and how long it took. -/
structure Reaction (σ : Type) where
  ending : Ending
  after : σ
  millis : Nat

namespace Reaction

variable {σ τ : Type}

def answer (outcome : Except Refusal Json) (after : σ) : Reaction σ := ⟨.answered outcome, after, 0⟩

def map (f : σ → τ) (r : Reaction σ) : Reaction τ := ⟨r.ending, f r.after, r.millis⟩

end Reaction

/-- Servants of type `σ`. A call without a reaction waits for somebody else to act first. -/
class Servant (σ : Type) where
  perform : σ → (method : String) → List Json → Option (Reaction σ)

end Coordination
