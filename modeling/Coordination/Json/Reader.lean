import Coordination.Json.Basic

/-!
Reading JSON texts. A number written without a point or an exponent that fits 64 bits is an integer,
every other number a real.
-/

namespace Coordination.Json

namespace Reader

def isBlank (c : Char) : Bool := c == ' ' || c == '\n' || c == '\t' || c == '\r'

def skipBlanks (s : List Char) : List Char := s.dropWhile isBlank

/-! Strings. -/

def hexDigit? (c : Char) : Option Nat :=
  if c.isDigit then some (c.toNat - '0'.toNat)
  else if 'a' ≤ c ∧ c ≤ 'f' then some (c.toNat - 'a'.toNat + 10)
  else if 'A' ≤ c ∧ c ≤ 'F' then some (c.toNat - 'A'.toNat + 10)
  else none

def hexUnit? (a b c d : Char) : Option Nat := do
  let a ← hexDigit? a
  let b ← hexDigit? b
  let c ← hexDigit? c
  let d ← hexDigit? d
  return ((a * 16 + b) * 16 + c) * 16 + d

def shortEscape? : Char → Option Char
  | '"' => some '"'
  | '\\' => some '\\'
  | '/' => some '/'
  | 'b' => some '\x08'
  | 'f' => some '\x0c'
  | 'n' => some '\n'
  | 'r' => some '\r'
  | 't' => some '\t'
  | _ => none

def isHighSurrogate (unit : Nat) : Bool := decide (0xd800 ≤ unit) && decide (unit < 0xdc00)

def isLowSurrogate (unit : Nat) : Bool := decide (0xdc00 ≤ unit) && decide (unit < 0xe000)

/-- What follows an opening quote, up to the closing one; `seen` holds the characters so far,
last first. -/
def stringBody (seen : List Char) : List Char → Option (String × List Char)
  | '"' :: rest => some (String.ofList seen.reverse, rest)
  | '\\' :: 'u' :: a :: b :: c :: d :: rest =>
      match hexUnit? a b c d with
      | none => none
      | some unit =>
          if isHighSurrogate unit then
            match rest with
            | '\\' :: 'u' :: e :: f :: g :: h :: rest =>
                match hexUnit? e f g h with
                | none => none
                | some low =>
                    if isLowSurrogate low then
                      let code := 0x10000 + (unit - 0xd800) * 0x400 + (low - 0xdc00)
                      stringBody (Char.ofNat code :: seen) rest
                    else none
            | _ => none
          else if isLowSurrogate unit then none
          else stringBody (Char.ofNat unit :: seen) rest
  | '\\' :: c :: rest =>
      match shortEscape? c with
      | none => none
      | some c => stringBody (c :: seen) rest
  | c :: rest => if c.toNat < 0x20 || c == '\\' then none else stringBody (c :: seen) rest
  | [] => none

/-! Numbers. -/

def naturalOf (digits : List Char) : Nat :=
  digits.foldl (fun n c => 10 * n + (c.toNat - '0'.toNat)) 0

def takeDigits (s : List Char) : List Char × List Char := s.span Char.isDigit

/-- The exponent part of a number, if there is one. -/
def exponent? : List Char → Option (Option Int × List Char)
  | 'e' :: rest | 'E' :: rest =>
      let (negative, rest) := match rest with
        | '-' :: rest => (true, rest)
        | '+' :: rest => (false, rest)
        | rest => (false, rest)
      match takeDigits rest with
      | ([], _) => none
      | (digits, rest) =>
          let n : Int := naturalOf digits
          some (some (if negative then -n else n), rest)
  | rest => some (none, rest)

def fraction? : List Char → Option (List Char × List Char)
  | '.' :: rest =>
      match takeDigits rest with
      | ([], _) => none
      | taken => some taken
  | rest => some ([], rest)

def numberOf (negative : Bool) (whole fraction : List Char) (exponent : Option Int) : Json :=
  let n : Int := naturalOf whole
  let integer := if negative then -n else n
  if fraction.isEmpty && exponent.isNone && decide (FitsWord integer) && !(negative && n == 0) then
    .integer integer
  else
    .real (.ofDecimal negative (naturalOf (whole ++ fraction)) (exponent.getD 0 - fraction.length))

def unsignedNumber (negative : Bool) (s : List Char) : Option (Json × List Char) :=
  match takeDigits s with
  | ([], _) => none
  | ('0' :: _ :: _, _) => none
  | (whole, rest) => do
      let (fraction, rest) ← fraction? rest
      let (exponent, rest) ← exponent? rest
      return (numberOf negative whole fraction exponent, rest)

def number : List Char → Option (Json × List Char)
  | '-' :: rest => unsignedNumber true rest
  | s => unsignedNumber false s

/-! Values. `fuel` bounds the nesting and the count of values still to be read. -/

mutual
def value (fuel : Nat) (s : List Char) : Option (Json × List Char) :=
  match fuel with
  | 0 => none
  | fuel + 1 =>
      match skipBlanks s with
      | 'n' :: 'u' :: 'l' :: 'l' :: rest => some (.null, rest)
      | 't' :: 'r' :: 'u' :: 'e' :: rest => some (.bool true, rest)
      | 'f' :: 'a' :: 'l' :: 's' :: 'e' :: rest => some (.bool false, rest)
      | '"' :: rest => (stringBody [] rest).map fun (s, rest) => (.string s, rest)
      | '[' :: rest =>
          match skipBlanks rest with
          | ']' :: rest => some (.array [], rest)
          | rest => (items fuel rest).map fun (xs, rest) => (.array xs, rest)
      | '\x7b' :: rest =>
          match skipBlanks rest with
          | '\x7d' :: rest => some (.object [], rest)
          | rest => (members fuel rest).map fun (xs, rest) => (.object (ofEntries xs), rest)
      | s => number s

def items (fuel : Nat) (s : List Char) : Option (List Json × List Char) :=
  match fuel with
  | 0 => none
  | fuel + 1 =>
      match value fuel s with
      | none => none
      | some (x, rest) =>
          match skipBlanks rest with
          | ',' :: rest => (items fuel rest).map fun (xs, rest) => (x :: xs, rest)
          | ']' :: rest => some ([x], rest)
          | _ => none

def members (fuel : Nat) (s : List Char) : Option (List (String × Json) × List Char) :=
  match fuel with
  | 0 => none
  | fuel + 1 =>
      match skipBlanks s with
      | '"' :: rest =>
          match stringBody [] rest with
          | none => none
          | some (key, rest) =>
              match skipBlanks rest with
              | ':' :: rest =>
                  match value fuel rest with
                  | none => none
                  | some (x, rest) =>
                      match skipBlanks rest with
                      | ',' :: rest =>
                          (members fuel rest).map fun (xs, rest) => ((key, x) :: xs, rest)
                      | '\x7d' :: rest => some ([(key, x)], rest)
                      | _ => none
              | _ => none
      | _ => none
end

end Reader

/-- The value that a text denotes, with the members of every object in ascending key order. -/
def parse? (s : String) : Option Json :=
  let chars := s.toList
  match Reader.value (chars.length + 1) chars with
  | some (value, rest) => if (Reader.skipBlanks rest).isEmpty then some value else none
  | none => none

end Coordination.Json
