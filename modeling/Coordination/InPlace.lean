/-!
Computations that change a state in place. One that fails undoes nothing: what it has done by then stays
done, and whether that is anything at all depends on its order.
-/

namespace Coordination

abbrev InPlace (ε σ α : Type) := ExceptT ε (StateM σ) α

namespace InPlace

variable {ε δ σ α : Type}

/-- What a computation comes to on a state, and the state that it leaves. -/
def on (x : InPlace ε σ α) (s : σ) : Except ε α × σ := (x.run.run s).run

/-- The state that a computation leaves, whether or not it fails. -/
def left (x : InPlace ε σ α) (s : σ) : σ := (x.on s).2

/-- The result of a computation with the state that it leaves; a failure is all that there is of one that
fails. -/
def value (x : InPlace ε σ α) (s : σ) : Except ε (α × σ) :=
  match x.on s with
  | (.ok a, after) => .ok (a, after)
  | (.error e, _) => .error e

/-- The state that a computation comes to, or how it fails. -/
def final (x : InPlace ε σ α) (s : σ) : Except ε σ := (·.2) <$> x.value s

/-- A result that has nothing to do with the state. -/
def ofResult (result : Except ε α) : InPlace ε σ α := ExceptT.mk (pure result)

/-- The same computation, with its failures in other words. -/
def mapFailure (f : ε → δ) (x : InPlace ε σ α) : InPlace δ σ α := ExceptT.adapt f x

end InPlace

end Coordination
