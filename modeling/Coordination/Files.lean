import Coordination.Bytes
import Coordination.Files.Path
import Coordination.Table

/-! A tree of directories and files, with the operations on it that can fail. -/

namespace Coordination

inductive FileNode where
  | file (content : Bytes)
  | directory
  deriving DecidableEq

/-- Nodes by place: the names from the root down, with slashes between them. The root itself is not
listed. -/
structure Files where
  nodes : Table String FileNode
  deriving DecidableEq

namespace Files

def empty : Files := ⟨.empty⟩

instance : Inhabited Files := ⟨empty⟩

/-! Places. -/

def child (place name : String) : String := if place.isEmpty then name else place ++ "/" ++ name

def parent (place : String) : String := Path.ofPieces (Path.pieces place).dropLast

/-- Where a step leads to. -/
def next (place step : String) : String := if step == ".." then parent place else child place step

def nodeAt? (f : Files) (place : String) : Option FileNode :=
  if place.isEmpty then some .directory else f.nodes.get? place

def isDirectory (f : Files) (place : String) : Bool := f.nodeAt? place == some .directory

/-- Follows steps that all have to lead to directories. -/
def walk? (f : Files) (place : String) : List String → Option String
  | [] => some place
  | step :: rest =>
      if f.isDirectory (next place step) then f.walk? (next place step) rest else none

/-- Place that steps lead to from the root, if the directory around it is there. -/
def placeOf? (f : Files) (steps : List String) : Option String :=
  match steps.reverse with
  | [] => some ""
  | last :: before => do
      let around ← f.walk? "" before.reverse
      return next around last

def place? (f : Files) (path : String) : Option String := f.placeOf? (Path.steps path)

def find? (f : Files) (path : String) : Option FileNode := do
  let place ← f.place? path
  let node ← f.nodeAt? place
  if node == .directory || !Path.namesDirectory path then some node else none

/-- Longest name of a file or directory, in bytes. -/
def maxName : Nat := 255

def isName (name : String) : Bool := decide (name.utf8ByteSize ≤ maxName) && !name.toList.contains '\x00'

/-- Place where a file can be put. -/
def filePlace? (f : Files) (path : String) : Option String := do
  let place ← f.place? path
  if f.isDirectory place || Path.namesDirectory path then none
  else if (Path.pieces place).all isName then some place else none

def setFile (f : Files) (place : String) (content : Bytes) : Files :=
  ⟨f.nodes.insert place (.file content)⟩

/-! Steps of writing. -/

inductive FileStep where
  | create (path : String)
  | append (path : String) (bytes : Bytes)
  | rename (source target : String)
  deriving DecidableEq

def perform (f : Files) : FileStep → Option Files
  | .create path => (f.filePlace? path).map fun place => f.setFile place []
  | .append path bytes => do
      let place ← f.filePlace? path
      match f.nodeAt? place with
      | some (.file content) => some (f.setFile place (content ++ bytes))
      | _ => none
  | .rename source target => do
      let source ← f.filePlace? source
      let target ← f.filePlace? target
      match f.nodeAt? source with
      | some (.file content) =>
          if source == target then some f
          else some ((⟨f.nodes.erase source⟩ : Files).setFile target content)
      | _ => none

/-- Performs steps up to the first one that fails. -/
def performAll (f : Files) : List FileStep → Files × Option FileStep
  | [] => (f, none)
  | step :: rest =>
      match f.perform step with
      | some f => f.performAll rest
      | none => (f, some step)

/-- Puts a file with a given content at a path. -/
def write? (f : Files) (path : String) (content : Bytes) : Option Files :=
  (f.filePlace? path).map fun place => f.setFile place content

/-! Directories. -/

/-- Goes one step on, to a directory that is made if nothing is there. -/
def makeStep? (f : Files) (place step : String) : Option (Files × String) :=
  if step == ".." then some (f, parent place)
  else
    let next := child place step
    match f.nodeAt? next with
    | some .directory => some (f, next)
    | some (.file _) => none
    | none => if isName step then some (⟨f.nodes.insert next .directory⟩, next) else none

/-- Takes steps up to the first one that fails; answers whether none did. -/
def makeSteps (f : Files) (place : String) : List String → Bool × Files
  | [] => (true, f)
  | step :: rest =>
      match f.makeStep? place step with
      | some (f, next) => f.makeSteps next rest
      | none => (false, f)

/-- Makes a directory and all those around it; answers whether it is there in the end. -/
def makeDirectories (f : Files) (path : String) : Bool × Files :=
  if path.contains '\x00' then (false, f) else f.makeSteps "" (Path.steps path)

/-- Names in a directory, in ascending order. -/
def names (f : Files) (directory : String) : List String :=
  (f.nodes.keys.filter fun place => parent place == directory).filterMap fun place =>
    (Path.pieces place).getLast?

end Files

end Coordination
