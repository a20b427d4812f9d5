import Coordination.CommandLine.Options

/-! The command line of the program: `serve` hosts blackboards, and `aggregate` reports on archives. -/

namespace Coordination

namespace CommandLine

structure Serving where
  debug : Bool
  listenPort : Option UInt16
  settings : Option String
  deriving DecidableEq, Repr

structure Aggregating where
  debug : Bool
  archives : List String
  windowStartMs : Option UInt64
  windowEndMs : Option UInt64
  document : Option String
  deriving DecidableEq, Repr

inductive Command where
  | serve (s : Serving)
  | aggregate (a : Aggregating)
  deriving DecidableEq, Repr

end CommandLine

structure CommandLine where
  debug : Bool
  command : CommandLine.Command
  deriving DecidableEq, Repr

namespace CommandLine

/-! Values. -/

def digits? (digits : List Char) : Option Nat :=
  if digits.isEmpty || !digits.all Char.isDigit then none
  else some (digits.foldl (fun n c => 10 * n + (c.toNat - '0'.toNat)) 0)

/-- A number that may have a plus sign before it. -/
def unsigned? : List Char → Option Nat
  | '+' :: digits => digits? digits
  | digits => digits? digits

/-- A number that may have a sign before it. -/
def signed? : List Char → Option Int
  | '-' :: digits => (digits? digits).map fun n => -(n : Int)
  | digits => (unsigned? digits).map fun n => (n : Int)

def port (text : String) : Except UsageFlaw UInt16 :=
  match signed? text.toList with
  | some n => if 0 ≤ n ∧ n < UInt16.size then .ok (.ofNat n.toNat) else .error .unreadableValue
  | none => .error .unreadableValue

def moment (text : String) : Except UsageFlaw UInt64 :=
  match unsigned? text.toList with
  | some n => if n < UInt64.size then .ok (.ofNat n) else .error .unreadableValue
  | none => .error .unreadableValue

def path (text : String) : Except UsageFlaw String :=
  if text.isEmpty then .error .missingValue else .ok text

/-! Options. -/

variable {σ : Type}

def helpFlag : Flag σ := ⟨"help", some 'h', fun _ => .error .help⟩

def versionFlag : Flag σ := ⟨"version", some 'V', fun _ => .error .version⟩

def debugFlag (isGiven : σ → Bool) (give : σ → σ) : Flag σ :=
  ⟨"debug", none, fun s => if isGiven s then .error .repeatedOption else .ok (give s)⟩

def servingOptions : Options Serving where
  flags := [debugFlag Serving.debug fun s => { s with debug := true }, helpFlag]
  valued := [
    ⟨"listen-port", fun s => s.listenPort.isSome, fun text s => do
      return { s with listenPort := some (← port text) }⟩,
    ⟨"config", fun s => s.settings.isSome, fun text s => do
      return { s with settings := some (← path text) }⟩]
  word := none

def aggregatingOptions : Options Aggregating where
  flags := [debugFlag Aggregating.debug fun a => { a with debug := true }, helpFlag]
  valued := [
    ⟨"window-start-ms", fun a => a.windowStartMs.isSome, fun text a => do
      return { a with windowStartMs := some (← moment text) }⟩,
    ⟨"window-end-ms", fun a => a.windowEndMs.isSome, fun text a => do
      return { a with windowEndMs := some (← moment text) }⟩,
    ⟨"json", fun a => a.document.isSome, fun text a => do
      return { a with document := some (← path text) }⟩]
  word := some fun text a => do return { a with archives := a.archives ++ [← path text] }

/-! Commands. -/

/-- Takes the port from the environment where the command line gives none. -/
def Serving.withEnvironment (listenPort : Option String) (s : Serving) :
    Except UsageFlaw Serving :=
  match s.listenPort, listenPort with
  | none, some text => do return { s with listenPort := some (← port text) }
  | _, _ => .ok s

def readServing (listenPort : Option String) (arguments : List String) :
    Except UsageFlaw Serving := do
  (← servingOptions.read ⟨false, none, none⟩ arguments).withEnvironment listenPort

/-- Archives have to be given, and of a window both bounds or none. -/
def Aggregating.checked (a : Aggregating) : Except UsageFlaw Aggregating :=
  if a.archives.isEmpty || a.windowStartMs.isSome != a.windowEndMs.isSome then
    .error .missingArgument
  else .ok a

def readAggregating (arguments : List String) : Except UsageFlaw Aggregating := do
  (← aggregatingOptions.read ⟨false, [], none, none, none⟩ arguments).checked

inductive CommandName where
  | serve
  | aggregate
  | help
  deriving DecidableEq, Repr

def CommandName.ofText? : String → Option CommandName
  | "serve" => some .serve
  | "aggregate" => some .aggregate
  | "help" => some .help
  | _ => none

/-- Help can be asked for on every command, help itself included. -/
def readHelp (topics : List String) : UsageFlaw :=
  match topics with
  | [] => .help
  | [topic] => if (CommandName.ofText? topic).isSome then .help else .unknownCommand
  | _ => .unknownCommand

def runsCommand (listenPort : Option String) (debug : Bool) (name : CommandName)
    (arguments : List String) : Except UsageFlaw CommandLine :=
  match name with
  | .serve => do
      let s ← readServing listenPort arguments
      return ⟨debug || s.debug, .serve s⟩
  | .aggregate => do
      let a ← readAggregating arguments
      return ⟨debug || a.debug, .aggregate a⟩
  | .help => .error (readHelp arguments)

/-- Options before the command; the value is whether there is the debug flag. -/
def leadingOptions : Options Bool := ⟨[debugFlag id fun _ => true, helpFlag, versionFlag], [], none⟩

/-- Reads up to the command, and then its own arguments. -/
def readLeading (listenPort : Option String) (escaped debug : Bool) :
    List String → Except UsageFlaw CommandLine
  | [] => .error (if debug then .noCommand else .helpOnNothing)
  | text :: rest =>
      match escaped, Argument.ofText text with
      | false, .escape => readLeading listenPort true debug rest
      | false, .long name value => do
          let (debug, _) ← leadingOptions.readLong name value (debug, .nothing)
          readLeading listenPort false debug rest
      | false, .short names => do
          let (debug, _) ← leadingOptions.readShort names (debug, .nothing)
          readLeading listenPort false debug rest
      | false, .word text =>
          match CommandName.ofText? text with
          | some name => runsCommand listenPort debug name rest
          | none => .error .unknownCommand
      | true, _ =>
          .error (if (CommandName.ofText? text).isSome then .unknownArgument else .unknownCommand)

/-- Reads the arguments after the name of the program; `listenPort` is what the environment says. -/
def read (listenPort : Option String) (arguments : List String) : Except UsageFlaw CommandLine :=
  readLeading listenPort false false arguments

end CommandLine

end Coordination
