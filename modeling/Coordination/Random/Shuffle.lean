import Coordination.Random.Generator

/-! Random permutations: from the last place down to the second, each element changes places with one
that does not stand after it. -/

namespace Coordination

variable {α : Type} {n : Nat}

def shuffleFrom (g : Generator) (items : Vector α n) :
    (place : Nat) → place < n → Vector α n × Generator
  | 0, _ => (items, g)
  | place + 1, inside =>
      let (chosen, g) := g.below (Nat.succ_pos (place + 1))
      shuffleFrom g (items.swap (place + 1) chosen inside (by omega)) place (by omega)

def shuffle (g : Generator) (items : Vector α n) : Vector α n × Generator :=
  if positive : 0 < n then shuffleFrom g items (n - 1) (by omega) else (items, g)

end Coordination
