import Coordination.Toml.Basic
import Coordination.Toml.Text

/-! Numbers, truth values, dates and times, each from the whole of its text. -/

namespace Coordination.Toml

/-- Digits, with single underscores allowed between two of them. -/
def digits? (isDigit : Char → Bool) : List Char → Option (List Char)
  | [] => none
  | [c] => if isDigit c then some [c] else none
  | c :: '_' :: rest => if isDigit c then (digits? isDigit rest).map (c :: ·) else none
  | c :: rest => if isDigit c then (digits? isDigit rest).map (c :: ·) else none

def numberIn (base : Nat) (digits : List Char) : Nat :=
  digits.foldl (fun n c => base * n + (hexDigit? c).getD 0) 0

def signed (s : List Char) : Bool × List Char :=
  match s with
  | '-' :: rest => (true, rest)
  | '+' :: rest => (false, rest)
  | rest => (false, rest)

def word? (n : Int) : Option Toml :=
  if -0x8000000000000000 ≤ n ∧ n < 0x8000000000000000 then some (.integer n) else none

/-- Digits of a decimal number, which starts with a zero only if it is zero. -/
def decimal? (s : List Char) : Option (List Char) := do
  let digits ← digits? Char.isDigit s
  match digits with
  | '0' :: _ :: _ => none
  | digits => some digits

def integer? (s : List Char) : Option Toml :=
  match s with
  | '0' :: 'x' :: rest => do word? (numberIn 16 (← digits? (fun c => (hexDigit? c).isSome) rest))
  | '0' :: 'o' :: rest => do word? (numberIn 8 (← digits? (fun c => '0' ≤ c && c ≤ '7') rest))
  | '0' :: 'b' :: rest => do word? (numberIn 2 (← digits? (fun c => c == '0' || c == '1') rest))
  | s => do
      let (negative, s) := signed s
      let n : Int := numberIn 10 (← decimal? s)
      word? (if negative then -n else n)

/-! Reals. -/

/-- Exponent behind the letter that announces it, if there is one. -/
def exponent? : List Char → Option Int
  | [] => some 0
  | _ :: rest => do
      let (negative, rest) := signed rest
      let n : Int := numberIn 10 (← digits? Char.isDigit rest)
      return if negative then -n else n

def isExponentMark (c : Char) : Bool := c == 'e' || c == 'E'

def real? (s : List Char) : Option Toml := do
  let (negative, s) := signed s
  match s with
  | ['i', 'n', 'f'] => return .real (if negative then .negativeInfinity else .infinity)
  | ['n', 'a', 'n'] => return .real .nan
  | s =>
      let (mantissa, rest) := s.span fun c => !isExponentMark c
      if rest.isEmpty && !mantissa.contains '.' then failure
      let exponent ← exponent? rest
      let (whole, rest) := mantissa.span fun c => c != '.'
      let whole ← decimal? whole
      let fraction ← match rest with
        | [] => some []
        | _ :: rest => digits? Char.isDigit rest
      let x := Binary64.ofDecimal negative (numberIn 10 (whole ++ fraction))
        (exponent - fraction.length)
      if x = .infinity then failure else return .real x

/-! Dates and times. -/

/-- A number of exactly `count` digits. -/
def fixedNumber? (count : Nat) (s : List Char) : Option (Nat × List Char) :=
  let digits := s.take count
  if digits.length = count && digits.all Char.isDigit then
    some (numberIn 10 digits, s.drop count)
  else none

def isLeap (year : Nat) : Bool := year % 4 == 0 && (year % 100 != 0 || year % 400 == 0)

def daysIn (year month : Nat) : Nat :=
  if month == 2 then (if isLeap year then 29 else 28)
  else if [4, 6, 9, 11].contains month then 30
  else 31

def isDay (year month day : Nat) : Bool :=
  1 ≤ month && month ≤ 12 && 1 ≤ day && day ≤ daysIn year month

def date? (s : List Char) : Option (List Char) := do
  let (year, rest) ← afterDash? (← fixedNumber? 4 s)
  let (month, rest) ← afterDash? (← fixedNumber? 2 rest)
  let (day, rest) ← fixedNumber? 2 rest
  if isDay year month day then return rest else failure
where
  afterDash? : Nat × List Char → Option (Nat × List Char)
    | (n, '-' :: rest) => some (n, rest)
    | _ => none

def clock? (s : List Char) : Option (List Char) :=
  match fixedNumber? 2 s with
  | some (hour, ':' :: rest) =>
      match fixedNumber? 2 rest with
      | some (minute, rest) => if hour < 24 && minute < 60 then some rest else none
      | none => none
  | _ => none

def time? (s : List Char) : Option (List Char) := do
  match ← clock? s with
  | ':' :: rest =>
      let (second, rest) ← fixedNumber? 2 rest
      if 60 < second then failure
      match rest with
      | '.' :: rest =>
          match rest.span Char.isDigit with
          | ([], _) => failure
          | (_, rest) => return rest
      | rest => return rest
  | _ => failure

def offset? : List Char → Option (List Char)
  | [] => some []
  | ['Z'] | ['z'] => some []
  | '+' :: rest | '-' :: rest => clock? rest
  | _ => none

def isDateMark (c : Char) : Bool := c == 'T' || c == 't' || c == ' '

def moment? (s : List Char) : Option Toml := do
  let rest ← match date? s with
    | some [] => some []
    | some (mark :: rest) => if isDateMark mark then do offset? (← time? rest) else none
    | none => time? s
  if rest.isEmpty then return .moment else failure

def scalar? (s : List Char) : Option Toml :=
  match s with
  | ['t', 'r', 'u', 'e'] => some (.bool true)
  | ['f', 'a', 'l', 's', 'e'] => some (.bool false)
  | s => moment? s <|> integer? s <|> real? s

/-! Where a scalar ends. -/

def isScalarChar (c : Char) : Bool :=
  c.isAlphanum || c == '_' || c == '+' || c == '-' || c == '.' || c == ':'

/-- The text of a scalar; a blank between a date and a time belongs to it. -/
def scalarText (s : List Char) : List Char × List Char :=
  match s.span isScalarChar with
  | (text, ' ' :: c :: rest) =>
      if c.isDigit && date? text == some [] then
        let (time, rest) := (c :: rest).span isScalarChar
        (text ++ ' ' :: time, rest)
      else (text, ' ' :: c :: rest)
  | taken => taken

end Coordination.Toml
