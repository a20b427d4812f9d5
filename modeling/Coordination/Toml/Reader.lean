import Coordination.Toml.Document
import Coordination.Toml.Scalar

/-! Reading TOML texts. -/

namespace Coordination.Toml

/-! Values. `fuel` bounds the count of values still to be read, `depth` their nesting. -/

mutual
def value (fuel depth : Nat) (s : List Char) : Option (Toml × List Char) :=
  match fuel, s with
  | 0, _ => none
  | fuel + 1, '[' :: rest =>
      match depth with
      | 0 => none
      | depth + 1 => (items fuel depth rest).map fun (xs, rest) => (.array xs, rest)
  | fuel + 1, '\x7b' :: rest =>
      match depth with
      | 0 => none
      | depth + 1 =>
          match skipBlanks rest with
          | '\x7d' :: rest => some (.table [], rest)
          | rest =>
              (pairs fuel depth [] rest).map fun (entries, rest) =>
                (.table (entriesToToml entries), rest)
  | _, '"' :: _ | _, '\'' :: _ => (string? s).map fun (s, rest) => (.string s, rest)
  | _, s =>
      let (text, rest) := scalarText s
      (scalar? text).map fun v => (v, rest)

/-- The items of an array, which may stand on lines of their own and end with a comma. -/
def items (fuel depth : Nat) (s : List Char) : Option (List Toml × List Char) :=
  match fuel with
  | 0 => none
  | fuel + 1 =>
      match skipLines s.length s with
      | ']' :: rest => some ([], rest)
      | s =>
          match value fuel depth s with
          | none => none
          | some (x, rest) =>
              match skipLines rest.length rest with
              | ',' :: rest => (items fuel depth rest).map fun (xs, rest) => (x :: xs, rest)
              | ']' :: rest => some ([x], rest)
              | _ => none

/-- The entries of a table on one line, added to those before. -/
def pairs (fuel depth : Nat) (entries : Entries) (s : List Char) :
    Option (Entries × List Char) :=
  match fuel with
  | 0 => none
  | fuel + 1 =>
      match keys? s with
      | some (keys, '=' :: rest) =>
          match value fuel depth (skipBlanks rest) with
          | none => none
          | some (v, rest) =>
              match entries.assign? v keys, skipBlanks rest with
              | some entries, ',' :: rest => pairs fuel depth entries rest
              | some entries, '\x7d' :: rest => some (entries, rest)
              | _, _ => none
      | _ => none
end

/-! Documents. -/

/-- The entries so far, and the path of the table that lines add to. -/
structure Draft where
  entries : Entries
  path : List String

/-- Adds a value to the table that lines add to. -/
def Draft.assign? (d : Draft) (keys : List String) (v : Toml) : Option Draft :=
  (d.entries.changeAt? (fun entries => entries.assign? v keys) d.path).map fun entries =>
    { d with entries }

/-- Opens a table, or one more table of an array. -/
def Draft.open? (d : Draft) (element : Bool) (path : List String) : Option Draft :=
  match path.getLast? with
  | none => none
  | some key =>
      let change := if element then Entries.openElement? key else Entries.openTable? key
      (d.entries.changeAt? change path.dropLast).map fun entries => ⟨entries, path⟩

/-- A line that is neither empty nor a mere comment. -/
def line? (d : Draft) (s : List Char) : Option (Draft × List Char) :=
  match s with
  | '[' :: '[' :: rest => do
      match ← keys? rest with
      | (path, ']' :: ']' :: rest) => return (← d.open? true path, rest)
      | _ => failure
  | '[' :: rest => do
      match ← keys? rest with
      | (path, ']' :: rest) => return (← d.open? false path, rest)
      | _ => failure
  | s => do
      match ← keys? s with
      | (keys, '=' :: rest) =>
          let (v, rest) ← value (rest.length + 1) maxDepth (skipBlanks rest)
          return (← d.assign? keys v, rest)
      | _ => failure

/-- Reads line after line; `fuel` bounds their number. -/
def lines? (fuel : Nat) (d : Draft) (s : List Char) : Option Draft :=
  match fuel, skipLines s.length s with
  | _, [] => some d
  | 0, _ => none
  | fuel + 1, s => do
      let (d, rest) ← line? d s
      lines? fuel d (← endOfLine? rest)

/-- The table that a text denotes; a mark of the byte order in front is passed over. -/
def parse? (s : String) : Option Toml :=
  let chars := match s.toList with
    | '\ufeff' :: rest => rest
    | chars => chars
  (lines? (chars.length + 1) ⟨[], []⟩ chars).map fun d => .table (entriesToToml d.entries)

end Coordination.Toml
