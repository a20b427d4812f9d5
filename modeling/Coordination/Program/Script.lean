import Coordination.Board.Host
import Coordination.Files
import Coordination.Remote.Ports
import Coordination.Statistics.Report

/-!
What a program asks of its surroundings, step by step. A script can be carried out, and it can be
followed over surroundings that are given as a value.
-/

namespace Coordination

inductive Script where
  | exit (code : UInt8)
  | print (text : String) (next : Script)
  | complain (text : String) (next : Script)
  /-- A file that cannot be read has no content. -/
  | readFile (path : String) (next : Option Bytes → Script)
  /-- The answer is whether the file could be made. -/
  | writeFile (path : String) (content : Bytes) (next : Bool → Script)
  | askOrigin (next : AggregateReport.Origin → Script)
  /-- Hosts boards on a port up to an interrupt; the answer is the host as it stands then. -/
  | serve (port : UInt16) (next : Except BindFlaw Host → Script)

structure Surroundings where
  files : Files
  origin : AggregateReport.Origin
  ports : Ports
  /-- What callers leave at the host, if there is one. -/
  host : Host

/-- What a script has done in the end. -/
structure Completion where
  code : UInt8
  output : String
  complaints : String
  files : Files

namespace Script

/-- The same completion with texts before its own. -/
def Completion.after (output complaints : String) (c : Completion) : Completion :=
  { c with output := output ++ c.output, complaints := complaints ++ c.complaints }

def follow (w : Surroundings) (files : Files) : Script → Completion
  | exit code => ⟨code, "", "", files⟩
  | print text next => Completion.after text "" (next.follow w files)
  | complain text next => Completion.after "" text (next.follow w files)
  | readFile path next =>
      match files.find? path with
      | some (.file content) => (next (some content)).follow w files
      | _ => (next none).follow w files
  | writeFile path content next =>
      match files.write? path content with
      | some files => (next true).follow w files
      | none => (next false).follow w files
  | askOrigin next => (next w.origin).follow w files
  | serve port next =>
      match w.ports.bind port with
      | .ok _ => (next (.ok w.host)).follow w files
      | .error flaw => (next (.error flaw)).follow w files

def completion (w : Surroundings) (script : Script) : Completion := script.follow w w.files

end Script

end Coordination
