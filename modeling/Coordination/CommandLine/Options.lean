import Coordination.CommandLine.Argument

/-!
Reading the options and words of one command into a value of type `σ`. A value is looked at when the
argument after it has been recognised, so that an unknown option is reported before a bad value.
-/

namespace Coordination.CommandLine

/-- Why a command line is not run as it stands. -/
inductive UsageFlaw where
  | help
  | helpOnNothing
  | version
  | noCommand
  | unknownCommand
  | unknownArgument
  | needlessValue
  | missingValue
  | unreadableValue
  | repeatedOption
  | missingArgument
  deriving DecidableEq, Repr

structure Flag (σ : Type) where
  name : String
  short : Option Char
  give : σ → Except UsageFlaw σ

structure ValuedOption (σ : Type) where
  name : String
  isGiven : σ → Bool
  give : String → σ → Except UsageFlaw σ

structure Options (σ : Type) where
  flags : List (Flag σ)
  valued : List (ValuedOption σ)
  /-- What a word that belongs to no option does, where such words are allowed. -/
  word : Option (String → σ → Except UsageFlaw σ)

/-- What has been recognised and not yet been put into the value. -/
inductive Pending (σ : Type) where
  | nothing
  | awaiting (o : ValuedOption σ)
  | valued (o : ValuedOption σ) (value : String)
  | word (give : String → σ → Except UsageFlaw σ) (text : String) (before : Pending σ)

variable {σ : Type}

def Pending.resolve : Pending σ → σ → Except UsageFlaw σ
  | .nothing, given => .ok given
  | .awaiting _, _ => .error .missingValue
  | .valued o value, given =>
      if o.isGiven given then .error .repeatedOption else o.give value given
  | .word give text before, given => do give text (← before.resolve given)

namespace Options

def flag? (o : Options σ) (name : String) : Option (Flag σ) := o.flags.find? (·.name == name)

def shortFlag? (o : Options σ) (name : Char) : Option (Flag σ) :=
  o.flags.find? (·.short == some name)

def valued? (o : Options σ) (name : String) : Option (ValuedOption σ) :=
  o.valued.find? (·.name == name)

/-- The value so far, with what is pending. -/
abbrev Progress (σ : Type) := σ × Pending σ

def readFlag (f : Flag σ) : Progress σ → Except UsageFlaw (Progress σ)
  | (given, pending) => do return (← f.give (← pending.resolve given), .nothing)

def readShort (o : Options σ) : List Char → Progress σ → Except UsageFlaw (Progress σ)
  | [], progress => .ok progress
  | name :: rest, progress =>
      match o.shortFlag? name with
      | none => .error .unknownArgument
      | some f => do readShort o rest (← readFlag f progress)

def readLong (o : Options σ) (name : String) (value : Option String) :
    Progress σ → Except UsageFlaw (Progress σ)
  | (given, pending) =>
      match o.flag? name, o.valued? name, value with
      | some f, _, none => readFlag f (given, pending)
      | some _, _, some _ => .error .needlessValue
      | none, some v, none => do return (← pending.resolve given, .awaiting v)
      | none, some v, some text => do
          let given ← pending.resolve given
          return (← (Pending.valued v text).resolve given, .nothing)
      | none, none, _ => .error .unknownArgument

/-- Words in a row stay pending together. -/
def readWord (o : Options σ) (text : String) : Progress σ → Except UsageFlaw (Progress σ)
  | (given, pending) =>
      match o.word, pending with
      | none, _ => .error .unknownArgument
      | some give, .word .. => .ok (given, .word give text pending)
      | some give, pending => do return (← pending.resolve given, .word give text .nothing)

def readArguments (o : Options σ) (escaped : Bool) (progress : Progress σ) :
    List String → Except UsageFlaw σ
  | [] => progress.2.resolve progress.1
  | text :: rest =>
      if escaped then do readArguments o true (← readWord o text progress) rest
      else
        match Argument.ofText text, progress with
        | .escape, progress => readArguments o true progress rest
        | .long name value, progress => do
            readArguments o false (← readLong o name value progress) rest
        | .short names, progress => do readArguments o false (← readShort o names progress) rest
        | .word text, (given, .awaiting v) =>
            readArguments o false (given, .valued v text) rest
        | .word text, progress => do readArguments o false (← readWord o text progress) rest

/-- Reads arguments, starting from `given`. -/
def read (o : Options σ) (given : σ) (arguments : List String) : Except UsageFlaw σ :=
  o.readArguments false (given, .nothing) arguments

end Options

end Coordination.CommandLine
