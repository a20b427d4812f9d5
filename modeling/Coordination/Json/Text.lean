import Coordination.Binary64.Decimal
import Coordination.Json.Basic

/-! JSON texts, compact and indented. -/

namespace Coordination

namespace Json

/-! Numbers. -/

/-- Decimal exponents from this one up to `scientificFrom` are written out in full. -/
def plainFrom : Int := -5

def scientificFrom : Int := 16

def zeros (count : Nat) : List Char := List.replicate count '0'

/-- Positional form with at least one decimal place. -/
def plainNumber (digits : List Char) (exponent : Int) : List Char :=
  if 0 ≤ exponent then digits ++ zeros exponent.toNat ++ ['.', '0']
  else
    let places := (-exponent).toNat
    if places < digits.length then
      digits.take (digits.length - places) ++ '.' :: digits.drop (digits.length - places)
    else '0' :: '.' :: zeros (places - digits.length) ++ digits

/-- One digit, the others after a point, and the exponent with its sign. -/
def scientificNumber (digits : List Char) (leading : Int) : List Char :=
  let mantissa := match digits with
    | d :: e :: rest => d :: '.' :: e :: rest
    | short => short
  let sign := if leading < 0 then '-' else '+'
  mantissa ++ 'e' :: sign :: Nat.toDigits 10 leading.natAbs

/-- Text of a decimal, never without a point or an exponent. -/
def decimalChars (d : Binary64.Decimal) : List Char :=
  let digits := Nat.toDigits 10 d.digits
  let leading := d.exponent + digits.length - 1
  if plainFrom ≤ leading ∧ leading < scientificFrom then plainNumber digits d.exponent
  else scientificNumber digits leading

/-- Text of a finite number: the fewest digits that read back. -/
def realChars (x : Binary64) : List Char :=
  if x.isNegative then '-' :: decimalChars x.shortest else decimalChars x.shortest

def realText (x : Binary64) : String := String.ofList (realChars x)

def integerChars : Int → List Char
  | .ofNat n => Nat.toDigits 10 n
  | .negSucc n => '-' :: Nat.toDigits 10 (n + 1)

/-! Strings. -/

def escapedChar (c : Char) : List Char :=
  match c with
  | '"' => ['\\', '"']
  | '\\' => ['\\', '\\']
  | '\x08' => ['\\', 'b']
  | '\t' => ['\\', 't']
  | '\n' => ['\\', 'n']
  | '\x0c' => ['\\', 'f']
  | '\r' => ['\\', 'r']
  | c =>
      if c.toNat < 0x20 then
        ['\\', 'u', '0', '0', Nat.digitChar (c.toNat / 16), Nat.digitChar (c.toNat % 16)]
      else [c]

def stringChars (s : String) : List Char := '"' :: s.toList.flatMap escapedChar ++ ['"']

/-! Values. -/

def scalarChars : Json → List Char
  | .bool true => ['t', 'r', 'u', 'e']
  | .bool false => ['f', 'a', 'l', 's', 'e']
  | .integer n => integerChars n
  | .real x => if x.isFinite then realChars x else ['n', 'u', 'l', 'l']
  | .string s => stringChars s
  | _ => ['n', 'u', 'l', 'l']

mutual
def chars : Json → List Char
  | .array items => '[' :: itemChars items ++ [']']
  | .object members => '\x7b' :: memberChars members ++ ['\x7d']
  | scalar => scalarChars scalar

def itemChars : List Json → List Char
  | [] => []
  | [x] => chars x
  | x :: xs => chars x ++ ',' :: itemChars xs

def memberChars : List (String × Json) → List Char
  | [] => []
  | [(k, x)] => stringChars k ++ ':' :: chars x
  | (k, x) :: xs => stringChars k ++ ':' :: chars x ++ ',' :: memberChars xs
end

def text (value : Json) : String := String.ofList value.chars

/-! Indented text: two spaces a level, nothing inside an empty array or object. -/

def lineBreak (level : Nat) : List Char := '\n' :: List.replicate (2 * level) ' '

mutual
def indentedChars (level : Nat) : Json → List Char
  | .array (x :: xs) =>
      '[' :: lineBreak (level + 1) ++ indentedChars (level + 1) x ++
        indentedItems (level + 1) xs ++ lineBreak level ++ [']']
  | .object ((k, x) :: xs) =>
      '\x7b' :: lineBreak (level + 1) ++ stringChars k ++ ':' :: ' ' ::
        indentedChars (level + 1) x ++ indentedMembers (level + 1) xs ++ lineBreak level ++ ['\x7d']
  | .array [] => ['[', ']']
  | .object [] => ['\x7b', '\x7d']
  | scalar => scalarChars scalar

def indentedItems (level : Nat) : List Json → List Char
  | [] => []
  | x :: xs => ',' :: lineBreak level ++ indentedChars level x ++ indentedItems level xs

def indentedMembers (level : Nat) : List (String × Json) → List Char
  | [] => []
  | (k, x) :: xs =>
      ',' :: lineBreak level ++ stringChars k ++ ':' :: ' ' :: indentedChars level x ++
        indentedMembers level xs
end

def indentedText (value : Json) : String := String.ofList (value.indentedChars 0)

end Json

end Coordination
