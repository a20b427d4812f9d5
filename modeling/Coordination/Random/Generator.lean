/-! A generator of uniform words: xoshiro256++, whose state is filled from a seed by SplitMix64. -/

namespace Coordination

structure Generator where
  a : UInt64
  b : UInt64
  c : UInt64
  d : UInt64
  deriving DecidableEq, Repr

namespace Generator

/-! Seeds. -/

/-- The word that follows a SplitMix64 state, and the next state. -/
def seedWord (state : UInt64) : UInt64 × UInt64 :=
  let state := state + 0x9e3779b97f4a7c15
  let z := (state ^^^ (state >>> 30)) * 0xbf58476d1ce4e5b9
  let z := (z ^^^ (z >>> 27)) * 0x94d049bb133111eb
  (z ^^^ (z >>> 31), state)

def ofSeed (seed : UInt64) : Generator :=
  let (a, state) := seedWord seed
  let (b, state) := seedWord state
  let (c, state) := seedWord state
  let (d, _) := seedWord state
  ⟨a, b, c, d⟩

/-! Words. -/

def rotateLeft (x count : UInt64) : UInt64 := (x <<< count) ||| (x >>> (64 - count))

def word (g : Generator) : UInt64 × Generator :=
  let result := rotateLeft (g.a + g.d) 23 + g.a
  let c := g.c ^^^ g.a
  let d := g.d ^^^ g.b
  let b := g.b ^^^ c
  let a := g.a ^^^ d
  (result, ⟨a, b, c ^^^ (g.b <<< 17), rotateLeft d 45⟩)

/-- The upper half of the next word. -/
def halfWord (g : Generator) : UInt32 × Generator :=
  let (word, g) := g.word
  ((word >>> 32).toUInt32, g)

/-! Numbers below a bound. A half word times the bound is taken apart into two half words: the upper
one is the number, and the lower one says whether the draw is kept, so that no number is favoured. -/

def leadingZeros (n : Nat) : Nat := 31 - n.log2

/-- Least lower half that is turned down. -/
def acceptBelow (n : Nat) : Nat := n * Nat.pow 2 (leadingZeros n)

theorem scaled_lt {n : Nat} (draw : UInt32) (positive : 0 < n) : draw.toNat * n / UInt32.size < n := by
  rw [Nat.div_lt_iff_lt_mul (by decide), Nat.mul_comm]
  exact Nat.mul_lt_mul_of_pos_left draw.toNat_lt positive

/-- Draws until one is kept, `fuel` times at most; each draw is kept with a chance of more than one
half. -/
def belowWith (fuel : Nat) {n : Nat} (positive : 0 < n) (g : Generator) : Fin n × Generator :=
  let (draw, g) := g.halfWord
  let scaled : Fin n := ⟨draw.toNat * n / UInt32.size, scaled_lt draw positive⟩
  match fuel with
  | 0 => (scaled, g)
  | fuel + 1 =>
      if draw.toNat * n % UInt32.size < acceptBelow n then (scaled, g) else belowWith fuel positive g

def below {n : Nat} (positive : 0 < n) (g : Generator) : Fin n × Generator :=
  belowWith 1000 positive g

end Generator

end Coordination
