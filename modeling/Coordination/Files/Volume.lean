import Coordination.Files

/-!
Directories in which there are links, files of several names and special files. Where there are none of
these, a volume is a tree of directories and files.
-/

namespace Coordination

/-- What a name stands for. Files go by number, so that one of them may have several names. -/
inductive Entry where
  | directory
  | file (number : Nat)
  | link (target : String)
  /-- A device, a pipe or a socket. -/
  | special
  deriving DecidableEq

/-- Entries by place and contents of files by number. -/
structure Volume where
  entries : Table String Entry
  contents : Table Nat Bytes
  deriving DecidableEq

namespace Volume

open Files (FileStep isName next)

def empty : Volume := ⟨.empty, .empty⟩

def entryAt? (v : Volume) (place : String) : Option Entry :=
  if place.isEmpty then some .directory else v.entries.get? place

def contentOf (v : Volume) (number : Nat) : Bytes := (v.contents.get? number).getD []

/-! Ways. -/

/-- What a path is followed for: a directory, whatever is there behind links, or the name that it ends
in. -/
inductive Aim where
  | directory
  | target
  | name
  deriving DecidableEq

/-- Where the target of a link is followed from. -/
def origin (around target : String) : String := if target.startsWith "/" then "" else around

/-- Follows steps up to a link; `turn` is what comes then. -/
def walkWith (v : Volume) (aim : Aim)
    (turn : (around target : String) → (rest : List String) → Option String) (place : String) :
    List String → Option String
  | [] => some place
  | step :: rest =>
      match v.entryAt? (next place step) with
      | some .directory => v.walkWith aim turn (next place step) rest
      | some (.link target) =>
          if rest = [] ∧ aim = .name then some (next place step) else turn place target rest
      | some (.file _) | some .special | none =>
          if rest = [] ∧ aim ≠ .directory then some (next place step) else none

/-- Follows steps, and behind `links` links at most. -/
def walk (v : Volume) (aim : Aim) : (links : Nat) → (place : String) → List String → Option String
  | 0 => v.walkWith aim fun _ _ _ => none
  | links + 1 => v.walkWith aim fun around target rest =>
      let aim := if rest = [] ∧ Path.namesDirectory target = true then .directory else aim
      v.walk aim links (origin around target) (Path.steps target ++ rest)

/-- Most links on the way of one path. -/
def maxLinks : Nat := 40

/-- Place of the name that a path ends in. -/
def place? (v : Volume) (path : String) : Option String :=
  v.walk .name maxLinks "" (Path.steps path)

/-- Place behind the links that a path may lead to. -/
def target? (v : Volume) (path : String) : Option String :=
  v.walk (if Path.namesDirectory path then .directory else .target) maxLinks "" (Path.steps path)

/-- What one finds that opens a path. -/
inductive Sight where
  | file (content : Bytes)
  | directory
  | special
  deriving DecidableEq

def sight? (v : Volume) : Entry → Option Sight
  | .directory => some .directory
  | .file number => some (.file (v.contentOf number))
  | .special => some .special
  | .link _ => none

def find? (v : Volume) (path : String) : Option Sight := do
  let place ← v.target? path
  v.sight? (← v.entryAt? place)

/-! Changes. -/

def setEntry (v : Volume) (place : String) (entry : Entry) : Volume :=
  { v with entries := v.entries.insert place entry }

def erase (v : Volume) (place : String) : Volume := { v with entries := v.entries.erase place }

def setContent (v : Volume) (number : Nat) (content : Bytes) : Volume :=
  { v with contents := v.contents.insert number content }

def numbers (v : Volume) : List Nat :=
  v.entries.values.filterMap fun
    | .file number => some number
    | .directory | .link _ | .special => none

/-- A number that no file has. -/
def fresh (v : Volume) : Nat := v.numbers.max?.getD 0 + 1

/-- Makes a new file at a place. -/
def addFile (v : Volume) (place : String) : Volume :=
  (v.setContent v.fresh []).setEntry place (.file v.fresh)

/-! Steps of writing. Nothing else happens between them, so that what has been opened at a path is there
later. -/

/-- Place of a file to be opened. -/
def openPlace? (v : Volume) (path : String) : Option String := do
  let place ← v.target? path
  if (Path.pieces place).all isName then some place else none

/-- Place of a name to be moved. -/
def namePlace? (v : Volume) (path : String) : Option String := do
  let place ← v.place? path
  if !Path.namesDirectory path && (Path.pieces place).all isName then some place else none

/-- Whether two entries are names of one file. -/
def areOneFile : Entry → Option Entry → Bool
  | .file number, some (.file other) => number == other
  | _, _ => false

/-- A special file takes what it is given and shows nothing of it; directories are not moved. -/
def perform (v : Volume) : FileStep → Option Volume
  | .create path => do
      let place ← v.openPlace? path
      match v.entryAt? place with
      | none => some (v.addFile place)
      | some (.file number) => some (v.setContent number [])
      | some .special => some v
      | some .directory | some (.link _) => none
  | .append path bytes => do
      let place ← v.openPlace? path
      match v.entryAt? place with
      | some (.file number) => some (v.setContent number (v.contentOf number ++ bytes))
      | some .special => some v
      | some .directory | some (.link _) | none => none
  | .rename source target => do
      let source ← v.namePlace? source
      let goal ← v.namePlace? target
      let entry ← v.entryAt? source
      let there := v.entryAt? goal
      if entry = .directory ∨ there = some .directory then none
      else if source = goal ∨ areOneFile entry there then some v
      else some ((v.erase source).setEntry goal entry)

end Volume

end Coordination
