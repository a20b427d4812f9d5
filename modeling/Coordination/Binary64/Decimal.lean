import Coordination.Binary64

/-!
Decimal forms of numbers: the fewest digits that read back to the same number, and a fixed count of
places.
-/

namespace Coordination.Binary64

/-- A decimal number `digits · 10^exponent`. -/
structure Decimal where
  digits : Nat
  exponent : Int
  deriving DecidableEq, Repr

namespace Decimal

/-- Drops the zeros at the end of the digits; `fuel` bounds their number. -/
def trim (fuel : Nat) (d : Decimal) : Decimal :=
  match fuel with
  | 0 => d
  | fuel + 1 =>
      if d.digits % 10 = 0 then trim fuel ⟨d.digits / 10, d.exponent + 1⟩ else d

def toBinary64 (d : Decimal) : Binary64 := ofDecimal false d.digits d.exponent

end Decimal

def digitCount (n : Nat) : Nat := (Nat.toDigits 10 n).length

/-- Exponent of the leading decimal digit of `units · 2^-1074`, for `units` above zero. -/
def leadingExponent (units : Nat) : Int :=
  if unitsPerOne ≤ units then (digitCount (units / unitsPerOne) : Int) - 1
  else -(digitCount ((unitsPerOne - 1) / units) : Int)

/-- The two neighbours of `units · 2^-1074` among the decimals with `count` digits. -/
def neighbours (units count : Nat) : Decimal × Decimal :=
  let exponent := leadingExponent units - (count : Int) + 1
  let below := units * Nat.pow 10 (-exponent).toNat / (unitsPerOne * Nat.pow 10 exponent.toNat)
  (⟨below, exponent⟩, ⟨below + 1, exponent⟩)

/-- Whether the lower neighbour is the nearer one; the even one of two that are equally near. -/
def lowerIsNearer (units : Nat) (below : Decimal) : Bool :=
  let scaled := 2 * units * Nat.pow 10 (-below.exponent).toNat
  let middle := (2 * below.digits + 1) * (unitsPerOne * Nat.pow 10 below.exponent.toNat)
  decide (scaled < middle) || (decide (scaled = middle) && below.digits % 2 == 0)

def readsBack (x : Binary64) (d : Decimal) : Bool :=
  decide (d.toBinary64.magnitude = x.magnitude)

/-- Decimal with `count` digits that reads back to `x`, the nearer one if two do. -/
def decimalOfLength? (x : Binary64) (count : Nat) : Option Decimal :=
  let (below, above) := neighbours x.absUnits count
  match readsBack x below, readsBack x above with
  | true, true => some (if lowerIsNearer x.absUnits below then below else above)
  | true, false => some below
  | false, true => some above
  | false, false => none

/-- The fewest digits that read back to `x`, a finite number; seventeen always suffice. -/
def shortest (x : Binary64) : Decimal :=
  if x.isZero then ⟨0, 0⟩
  else
    match (List.range 17).findSome? fun shorter => decimalOfLength? x (shorter + 1) with
    | some d => d.trim 400
    | none => (neighbours x.absUnits 17).1

/-! Fixed places. -/

/-- Digits of `n` with a point before the last `places`. -/
def pointed (places n : Nat) : String :=
  let digits := Nat.toDigits 10 n
  let padded := List.replicate (places + 1 - digits.length) '0' ++ digits
  let whole := padded.length - places
  String.ofList (padded.take whole) ++ "." ++ String.ofList (padded.drop whole)

/-- Text with exactly `places` digits after the point, a half going to the even digit. -/
def fixed (places : Nat) (x : Binary64) : String :=
  if x.isNaN then "NaN"
  else
    let sign := if x.isNegative then "-" else ""
    if x.isInfinite then sign ++ "inf"
    else sign ++ pointed places (roundHalfEven (x.absUnits * Nat.pow 10 places) unitsPerOne)

end Coordination.Binary64
