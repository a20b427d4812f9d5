/-!
Double-precision numbers as bit patterns. A finite pattern denotes a whole number of units of
2^-1074, so every operation is exact arithmetic on integers followed by one rounding to the nearest
pattern, ties to the even one.
-/

namespace Coordination

structure Binary64 where
  bits : UInt64
  deriving DecidableEq, Repr, Inhabited

namespace Binary64

/-! Fields of a pattern. Magnitudes are patterns without the sign bit; they are ordered as the
numbers they denote. -/

def signWeight : Nat := 0x8000000000000000

/-- Count of the magnitudes between a power of two and the next. -/
def octave : Nat := 0x10000000000000

def infinityMagnitude : Nat := 2047 * octave

def magnitude (x : Binary64) : Nat := x.bits.toNat % signWeight

def isNegative (x : Binary64) : Bool := decide (signWeight ≤ x.bits.toNat)

def isNaN (x : Binary64) : Bool := decide (infinityMagnitude < x.magnitude)

def isInfinite (x : Binary64) : Bool := decide (x.magnitude = infinityMagnitude)

def isFinite (x : Binary64) : Bool := decide (x.magnitude < infinityMagnitude)

def isZero (x : Binary64) : Bool := decide (x.magnitude = 0)

def ofMagnitude (negative : Bool) (magnitude : Nat) : Binary64 :=
  ⟨UInt64.ofNat (magnitude + if negative then signWeight else 0)⟩

def zero : Binary64 := ofMagnitude false 0

def infinity : Binary64 := ofMagnitude false infinityMagnitude

def negativeInfinity : Binary64 := ofMagnitude true infinityMagnitude

def nan : Binary64 := ofMagnitude false (infinityMagnitude + octave / 2)

/-! Exact values, in units of 2^-1074. -/

def unitsPerOne : Nat := Nat.pow 2 1074

def unitsOfMagnitude (magnitude : Nat) : Nat :=
  if magnitude < 2 * octave then magnitude
  else (octave + magnitude % octave) * Nat.pow 2 (magnitude / octave - 1)

def absUnits (x : Binary64) : Nat := unitsOfMagnitude x.magnitude

def units (x : Binary64) : Int :=
  if x.isNegative then -(x.absUnits : Int) else (x.absUnits : Int)

/-- Nearest whole number to `num / den`; a half goes to the even neighbour. -/
def roundHalfEven (num den : Nat) : Nat :=
  let floor := num / den
  let twice := 2 * (num % den)
  if twice < den then floor
  else if den < twice then floor + 1
  else floor + floor % 2

/-- Magnitude nearest to `num / den` units; from half a step past the largest finite one on,
infinity. -/
def nearestMagnitude (num den : Nat) : Nat :=
  let shift := (num / den).log2 - 52
  min (shift * octave + roundHalfEven num (den * Nat.pow 2 shift)) infinityMagnitude

def ofRatio (negative : Bool) (num den : Nat) : Binary64 :=
  ofMagnitude negative (nearestMagnitude num den)

def ofUnits (units : Int) : Binary64 := ofRatio (decide (units < 0)) units.natAbs 1

def ofInt (n : Int) : Binary64 := ofUnits (n * unitsPerOne)

def ofNat (n : Nat) : Binary64 := ofInt n

/-- Number nearest to `±digits · 10^exponent`. Exponents past the range are cut short where the
answer no longer depends on them. -/
def ofDecimal (negative : Bool) (digits : Nat) (exponent : Int) : Binary64 :=
  if digits = 0 then ofMagnitude negative 0
  else if exponent > 400 then ofMagnitude negative infinityMagnitude
  else if exponent < -(400 + (digits.log2 : Int)) then ofMagnitude negative 0
  else ofRatio negative (digits * Nat.pow 10 exponent.toNat * unitsPerOne)
    (Nat.pow 10 (-exponent).toNat)

/-! Arithmetic. -/

def neg (x : Binary64) : Binary64 := ofMagnitude (!x.isNegative) x.magnitude

def add (x y : Binary64) : Binary64 :=
  if x.isNaN || y.isNaN then nan
  else if x.isInfinite then
    if y.isInfinite && x.isNegative != y.isNegative then nan else x
  else if y.isInfinite then y
  else if x.units + y.units = 0 then ofMagnitude (x.isNegative && y.isNegative) 0
  else ofUnits (x.units + y.units)

def sub (x y : Binary64) : Binary64 := add x (neg y)

def mul (x y : Binary64) : Binary64 :=
  let negative := x.isNegative != y.isNegative
  if x.isNaN || y.isNaN then nan
  else if x.isInfinite || y.isInfinite then
    if x.isZero || y.isZero then nan else ofMagnitude negative infinityMagnitude
  else ofRatio negative (x.absUnits * y.absUnits) unitsPerOne

def div (x y : Binary64) : Binary64 :=
  let negative := x.isNegative != y.isNegative
  if x.isNaN || y.isNaN then nan
  else if x.isInfinite then
    if y.isInfinite then nan else ofMagnitude negative infinityMagnitude
  else if y.isInfinite then ofMagnitude negative 0
  else if y.isZero then
    if x.isZero then nan else ofMagnitude negative infinityMagnitude
  else ofRatio negative (x.absUnits * unitsPerOne) y.absUnits

/-! Order. Both zeros have rank 0; a NaN is below nothing and above nothing. -/

def rank (x : Binary64) : Int :=
  if x.isNegative then -(x.magnitude : Int) else (x.magnitude : Int)

def lt (x y : Binary64) : Bool := !x.isNaN && !y.isNaN && decide (x.rank < y.rank)

def le (x y : Binary64) : Bool := !x.isNaN && !y.isNaN && decide (x.rank ≤ y.rank)

/-- Equality as of numbers: the zeros are equal, and a NaN equals nothing. -/
def equals (x y : Binary64) : Bool := x.le y && y.le x

/-- Lesser of two numbers; a NaN gives way to the other operand. -/
def min (x y : Binary64) : Binary64 :=
  if x.isNaN then y else if y.isNaN then x else if y.lt x then y else x

/-- Greater of two numbers; a NaN gives way to the other operand. -/
def max (x y : Binary64) : Binary64 :=
  if x.isNaN then y else if y.isNaN then x else if x.lt y then y else x

/-- Least whole number not below a finite number that is not negative. -/
def ceilNat (x : Binary64) : Nat := (x.absUnits + unitsPerOne - 1) / unitsPerOne

/-! The short format, read into the long one. -/

/-- Number with the same value as a 32-bit pattern, whose finite values are multiples of 2^-149. -/
def ofBinary32 (bits : UInt32) : Binary64 :=
  let negative := decide (0x80000000 ≤ bits.toNat)
  let magnitude := bits.toNat % 0x80000000
  let exponent := magnitude / 0x800000
  let fraction := magnitude % 0x800000
  if exponent = 255 then
    ofMagnitude negative (infinityMagnitude + fraction * 0x20000000)
  else
    let parts :=
      if exponent = 0 then fraction else (0x800000 + fraction) * Nat.pow 2 (exponent - 1)
    ofRatio negative (parts * Nat.pow 2 925) 1

end Binary64

end Coordination
