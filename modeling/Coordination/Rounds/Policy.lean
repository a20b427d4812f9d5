import Coordination.Random.Shuffle

/-!
The order in which the tasks of a round are run. An order is to list every task of the round once; these
are the two that there are for a controller without writing another, and `Policy.order_perm` says that
they do.
-/

namespace Coordination

inductive Policy where
  | roundRobin
  | random (generator : Generator)
  deriving DecidableEq, Repr

namespace Policy

def name : Policy → String
  | .roundRobin => "round_robin"
  | .random _ => "random"

/-- Order of the next round, by task number, and the policy for the rounds after it. -/
def order (policy : Policy) (tasks : Nat) : List Nat × Policy :=
  match policy with
  | .roundRobin => (List.range tasks, .roundRobin)
  | .random generator =>
      let (order, generator) := shuffle generator (Vector.range tasks)
      (order.toList, .random generator)

/-- The policy after this many rounds. -/
def after (policy : Policy) (tasks : Nat) : (rounds : Nat) → Policy
  | 0 => policy
  | rounds + 1 => ((policy.after tasks rounds).order tasks).2

/-- Order of the round that comes after this many rounds. -/
def orderAfter (policy : Policy) (tasks rounds : Nat) : List Nat :=
  ((policy.after tasks rounds).order tasks).1

end Policy

end Coordination
