import Coordination.Remote.Dispatcher

/-!
Ways to call methods in one other process. A call acts on a world `ω`; it has no result if it never
comes back to its caller.
-/

namespace Coordination

inductive Transport where
  | inProcess
  | tcp
  deriving DecidableEq, Repr, Inhabited

namespace Transport

def text : Transport → String
  | .inProcess => "local"
  | .tcp => "tcp"

def name : Transport → String
  | .inProcess => "Local"
  | .tcp => "Tcp"

end Transport

abbrev Outcome := Except Failure Json

instance decidableEqExcept {ε α : Type} [DecidableEq ε] [DecidableEq α] :
    DecidableEq (Except ε α)
  | .ok a, .ok b => decidable_of_iff (a = b) (by simp)
  | .error d, .error e => decidable_of_iff (d = e) (by simp)
  | .ok _, .error _ => isFalse (by simp)
  | .error _, .ok _ => isFalse (by simp)

structure Channel (ω : Type) where
  transport : Transport
  peer : String
  /-- Calls a method, giving up after `timeout` milliseconds if there is a timeout. -/
  invoke : (timeout : Option UInt64) → Target → (method : String) → List Json → ω →
    Option (Outcome × ω)

namespace Channel

variable {ω ψ σ : Type}

/-- The same channel as part of a larger world. -/
def within (view : ψ → ω) (update : ω → ψ → ψ) (c : Channel ω) : Channel ψ where
  transport := c.transport
  peer := c.peer
  invoke timeout target method args world :=
    (c.invoke timeout target method args (view world)).map fun (outcome, inner) =>
      (outcome, update inner world)

/-! Calls inside the process. -/

def outcomeOf (outcome : Except Refusal Json) : Outcome := outcome.mapError Refusal.failure

/-- A call without a timeout shares the fate of a handler that crashes or waits; with one, the caller
gets away. -/
def dispatchWithin [Servant σ] (timeout : Option UInt64) (target : Target) (method : String)
    (args : List Json) (d : Dispatcher σ) : Option (Outcome × Dispatcher σ) :=
  match timeout, d.dispatch target method args with
  | none, some ⟨.answered outcome, after, _⟩ => some (outcomeOf outcome, after)
  | none, _ => none
  | some limit, none => some (.error (.timeout limit), d)
  | some limit, some ⟨ending, after, millis⟩ =>
      match ending with
      | .answered outcome =>
          if millis < limit.toNat then some (outcomeOf outcome, after)
          else some (.error (.timeout limit), after)
      | .crashed _ => some (.error (.timeout limit), after)

def inProcess [Servant σ] : Channel (Dispatcher σ) where
  transport := .inProcess
  peer := "local"
  invoke := dispatchWithin

end Channel

end Coordination
