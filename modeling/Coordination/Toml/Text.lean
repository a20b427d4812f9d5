/-! Characters, strings, keys and blanks of TOML texts. Each function reads from the front. -/

namespace Coordination.Toml

def isBlank (c : Char) : Bool := c == ' ' || c == '\t'

def skipBlanks (s : List Char) : List Char := s.dropWhile isBlank

/-- Characters that may stand in comments and strings: tabs and all that is no control character. -/
def isPlain (c : Char) : Bool := c == '\t' || (0x20 ≤ c.toNat && c.toNat != 0x7f)

/-- The rest behind a line break. -/
def lineBreak? : List Char → Option (List Char)
  | '\n' :: rest => some rest
  | '\r' :: '\n' :: rest => some rest
  | _ => none

/-- Skips a comment, if there is one. -/
def skipComment : List Char → List Char
  | '#' :: rest => rest.dropWhile isPlain
  | rest => rest

/-- The rest behind the end of a line, where only blanks and a comment may stand before it. -/
def endOfLine? (s : List Char) : Option (List Char) :=
  match skipComment (skipBlanks s) with
  | [] => some []
  | rest => lineBreak? rest

/-- Skips blanks, comments and line breaks; `fuel` bounds the number of lines. -/
def skipLines (fuel : Nat) (s : List Char) : List Char :=
  let rest := skipComment (skipBlanks s)
  match fuel, lineBreak? rest with
  | fuel + 1, some rest => skipLines fuel rest
  | _, _ => rest

/-! Strings. -/

def hexDigit? (c : Char) : Option Nat :=
  if c.isDigit then some (c.toNat - '0'.toNat)
  else if 'a' ≤ c ∧ c ≤ 'f' then some (c.toNat - 'a'.toNat + 10)
  else if 'A' ≤ c ∧ c ≤ 'F' then some (c.toNat - 'A'.toNat + 10)
  else none

def hexNumber? (digits : List Char) : Option Nat :=
  digits.foldlM (fun n c => (hexDigit? c).map fun digit => 16 * n + digit) 0

/-- The character with a code of `count` digits. -/
def codedChar? (count : Nat) (s : List Char) : Option (Char × List Char) := do
  let digits := s.take count
  if digits.length < count then failure
  let code ← hexNumber? digits
  if code.isValidChar then return (Char.ofNat code, s.drop count) else failure

/-- The character that stands behind a backslash. -/
def escaped? : List Char → Option (Char × List Char)
  | 'b' :: rest => some ('\x08', rest)
  | 't' :: rest => some ('\t', rest)
  | 'n' :: rest => some ('\n', rest)
  | 'f' :: rest => some ('\x0c', rest)
  | 'r' :: rest => some ('\r', rest)
  | '"' :: rest => some ('"', rest)
  | '\\' :: rest => some ('\\', rest)
  | 'u' :: rest => codedChar? 4 rest
  | 'U' :: rest => codedChar? 8 rest
  | _ => none

/-- What kind of quotes a string stands between. -/
structure Quotes where
  mark : Char
  multiline : Bool

/-- Whether backslashes escape. -/
def Quotes.escapes (q : Quotes) : Bool := q.mark == '"'

/-- The rest behind a backslash at the end of a line, and behind all blanks and breaks after it. -/
def joinedLine? (s : List Char) : Option (List Char) :=
  (lineBreak? (skipBlanks s)).map fun rest =>
    rest.dropWhile fun c => isBlank c || c == '\n' || c == '\r'

/-- Reads up to the closing quotes; `seen` holds the characters so far, last first. Quotes right before
the closing ones belong to the string. -/
def stringBody (q : Quotes) (fuel : Nat) (seen s : List Char) : Option (String × List Char) :=
  match fuel, s with
  | 0, _ | _, [] => none
  | fuel + 1, c :: rest =>
      if c == q.mark then
        if q.multiline then
          let marks := (s.takeWhile (· == q.mark)).length
          if marks < 3 then stringBody q fuel (List.replicate marks c ++ seen) (s.drop marks)
          else
            let kept := min (marks - 3) 2
            some (String.ofList (List.replicate kept c ++ seen).reverse, s.drop (kept + 3))
        else some (String.ofList seen.reverse, rest)
      else if c == '\\' && q.escapes then
        match escaped? rest with
        | some (c, rest) => stringBody q fuel (c :: seen) rest
        | none =>
            if q.multiline then
              match joinedLine? rest with
              | some rest => stringBody q fuel seen rest
              | none => none
            else none
      else if isPlain c then stringBody q fuel (c :: seen) rest
      else if q.multiline then
        match lineBreak? s with
        | some rest => stringBody q fuel ('\n' :: seen) rest
        | none => none
      else none

def bodyOf (q : Quotes) (s : List Char) : Option (String × List Char) :=
  stringBody q (s.length + 1) [] s

/-- A string; a line break right behind the opening of a multi-line one is left out. -/
def string? : List Char → Option (String × List Char)
  | '"' :: '"' :: '"' :: rest => bodyOf ⟨'"', true⟩ ((lineBreak? rest).getD rest)
  | '\'' :: '\'' :: '\'' :: rest => bodyOf ⟨'\'', true⟩ ((lineBreak? rest).getD rest)
  | '"' :: rest => bodyOf ⟨'"', false⟩ rest
  | '\'' :: rest => bodyOf ⟨'\'', false⟩ rest
  | _ => none

/-! Keys. -/

def isBare (c : Char) : Bool := c.isAlphanum || c == '_' || c == '-'

def simpleKey? (s : List Char) : Option (String × List Char) :=
  match s with
  | '"' :: rest => bodyOf ⟨'"', false⟩ rest
  | '\'' :: rest => bodyOf ⟨'\'', false⟩ rest
  | _ =>
      match s.span isBare with
      | ([], _) => none
      | (name, rest) => some (String.ofList name, rest)

/-- Keys between dots; `fuel` bounds their number. -/
def keysWith (fuel : Nat) (s : List Char) : Option (List String × List Char) :=
  match fuel with
  | 0 => none
  | fuel + 1 => do
      let (key, rest) ← simpleKey? (skipBlanks s)
      match skipBlanks rest with
      | '.' :: rest =>
          let (keys, rest) ← keysWith fuel rest
          return (key :: keys, rest)
      | rest => return ([key], rest)

/-- Largest number of keys between dots, and of arrays and tables inside one another. -/
def maxDepth : Nat := 79

def keys? (s : List Char) : Option (List String × List Char) := keysWith maxDepth s

end Coordination.Toml
