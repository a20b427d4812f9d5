import Coordination.Toml.Basic

/-!
Documents under construction. A table may be opened by one header only; headers of tables inside it and
dotted keys may make it before, but dotted keys add only to tables that dotted keys have made.
-/

namespace Coordination.Toml

/-- How a table came to be. -/
inductive Maker where
  | header
  | innerHeader
  | dottedKey
  deriving DecidableEq

inductive Node where
  | value (v : Toml)
  | table (maker : Maker) (entries : List (String × Node))
  | tables (all : List (List (String × Node)))
  deriving Inhabited

abbrev Entries := List (String × Node)

namespace Entries

/-- Puts a node in the place of the one with the same key, or at the end. -/
def put (entries : Entries) (key : String) (node : Node) : Entries :=
  match entries with
  | [] => [(key, node)]
  | (k, n) :: rest => if k == key then (key, node) :: rest else (k, n) :: put rest key node

/-- Changes the entries of the last table of an array. -/
def changeLast? (change : Entries → Option Entries) : List Entries → Option (List Entries)
  | [] => none
  | [last] => (change last).map fun last => [last]
  | first :: rest => (changeLast? change rest).map (first :: ·)

/-- Changes the entries that a header path leads to; tables on the way are made. -/
def changeAt? (change : Entries → Option Entries) (entries : Entries) :
    List String → Option Entries
  | [] => change entries
  | key :: path =>
      match entries.lookup key with
      | none => (changeAt? change [] path).map fun inner =>
          put entries key (.table .innerHeader inner)
      | some (.table maker inner) => (changeAt? change inner path).map fun inner =>
          put entries key (.table maker inner)
      | some (.tables all) =>
          (changeLast? (fun inner => changeAt? change inner path) all).map fun all =>
            put entries key (.tables all)
      | some (.value _) => none

/-- Opens a table under a key. -/
def openTable? (key : String) (entries : Entries) : Option Entries :=
  match entries.lookup key with
  | none => some (put entries key (.table .header []))
  | some (.table .innerHeader inner) => some (put entries key (.table .header inner))
  | some _ => none

/-- Opens one more table of an array under a key. -/
def openElement? (key : String) (entries : Entries) : Option Entries :=
  match entries.lookup key with
  | none => some (put entries key (.tables [[]]))
  | some (.tables all) => some (put entries key (.tables (all ++ [[]])))
  | some _ => none

/-- Adds a value under keys between dots. -/
def assign? (v : Toml) (entries : Entries) : List String → Option Entries
  | [] => none
  | [key] =>
      match entries.lookup key with
      | none => some (put entries key (.value v))
      | some _ => none
  | key :: next :: path =>
      match entries.lookup key with
      | none => (assign? v [] (next :: path)).map fun inner =>
          put entries key (.table .dottedKey inner)
      | some (.table .dottedKey inner) => (assign? v inner (next :: path)).map fun inner =>
          put entries key (.table .dottedKey inner)
      | some (.table .innerHeader inner) =>
          if path.isEmpty then none
          else (assign? v inner (next :: path)).map fun inner =>
            put entries key (.table .innerHeader inner)
      | some (.tables all) =>
          if path.isEmpty then none
          else (changeLast? (fun inner => assign? v inner (next :: path)) all).map fun all =>
            put entries key (.tables all)
      | some _ => none

end Entries

/-! The finished document. -/

mutual
def Node.toToml : Node → Toml
  | .value v => v
  | .table _ entries => .table (entriesToToml entries)
  | .tables all => .array (tablesToToml all)

def entriesToToml : List (String × Node) → List (String × Toml)
  | [] => []
  | (key, node) :: rest => (key, node.toToml) :: entriesToToml rest

def tablesToToml : List (List (String × Node)) → List Toml
  | [] => []
  | entries :: rest => .table (entriesToToml entries) :: tablesToToml rest
end

end Coordination.Toml
