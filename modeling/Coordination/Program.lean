import Coordination.Board.Summary
import Coordination.CommandLine
import Coordination.Program.Script
import Coordination.Settings.File
import Coordination.Statistics.Archive.File

/-! The program: its commands as scripts. -/

namespace Coordination.Program

open CommandLine (Serving Aggregating UsageFlaw)

/-! Usage. -/

def usage : String := String.intercalate "\n" [
  "Usage: hydra-coord [--debug] <COMMAND>",
  "",
  "Commands:",
  "  serve      Host blackboards for remote workers over TCP",
  "               [--listen-port <PORT>] [--config <FILE>]",
  "  aggregate  Merge statistics archives into one report",
  "               <ARCHIVE>... [--window-start-ms <MS> --window-end-ms <MS>] [--json <FILE>]",
  "  help       Print this text",
  ""]

def misuse (text : String) : Script := .complain ("error: " ++ text ++ "\n\n" ++ usage) (.exit 2)

def explain : UsageFlaw → Script
  | .help => .print usage (.exit 0)
  | .version =>
      .print (AggregateReport.toolName ++ " " ++ AggregateReport.toolVersion ++ "\n") (.exit 0)
  | .helpOnNothing => .complain usage (.exit 2)
  | .noCommand => misuse "a command is required"
  | .unknownCommand => misuse "there is no such command"
  | .unknownArgument => misuse "there is no such argument"
  | .needlessValue => misuse "a value was given to an option that takes none"
  | .missingValue => misuse "a value is missing"
  | .unreadableValue => misuse "a value is not a number in range"
  | .repeatedOption => misuse "an option was given more than once"
  | .missingArgument => misuse "a required argument is missing"

/-- Ends with a message, and with what caused it. -/
def fail (message : String) (cause : Option String) : Script :=
  let causes := match cause with
    | none => ""
    | some cause => "\nCaused by:\n    " ++ cause ++ "\n"
  .complain ("Error: " ++ message ++ "\n" ++ causes) (.exit 1)

/-! Serving. -/

def summaryLines (host : Host) : String :=
  String.join ((host.summaries .tcp).map fun s => s.text ++ "\n")

/-- Hosts boards, and prints in the end what they hold. -/
def serveWith : Except Settings.LoadFlaw Settings → Script
  | .error flaw => fail flaw.message none
  | .ok settings => .serve settings.service.listenPort fun
      | .error flaw => fail flaw.message (some flaw.reason)
      | .ok host => .print (summaryLines host) (.exit 0)

def serve (processors : Nat) (s : Serving) : Script :=
  match s.settings with
  | none => serveWith (Settings.load processors s.listenPort none)
  | some path => .readFile path fun content =>
      serveWith (Settings.load processors s.listenPort (some (path, content)))

/-! Reports. -/

def window (a : Aggregating) : Except Fault (Option TimeWindow) :=
  match a.windowStartMs, a.windowEndMs with
  | some start, some finish => some <$> TimeWindow.checked start finish
  | _, _ => .ok none

/-- Reads the archives that can be read, in order. -/
def readArchives (next : List Archive → Script) : List String → Script
  | [] => next []
  | path :: rest => .readFile path fun content =>
      let archive := content.bind fun bytes => (Archive.ofContent path bytes).toOption
      readArchives (fun later => next (archive.toList ++ later)) rest

def writeDocument (path : String) (report : AggregateReport) : Script :=
  .askOrigin fun origin =>
    .writeFile path (Bytes.ofString (report.documentText origin)) fun written =>
      if written then .exit 0 else fail ("Failed to create JSON output: " ++ path) none

def reportOn (a : Aggregating) (window : Option TimeWindow) (archives : List Archive) : Script :=
  if archives.isEmpty then
    fail s!"None of the {a.archives.length} archive(s) could be read" none
  else
    match AggregateReport.ofArchives archives window with
    | .error fault => fail fault.message none
    | .ok report => .print report.text (match a.document with
        | none => .exit 0
        | some path => writeDocument path report)

def aggregate (a : Aggregating) : Script :=
  match window a with
  | .error fault => fail fault.message none
  | .ok window => readArchives (reportOn a window) a.archives

/-! Commands. -/

/-- The script for some arguments, given the number of processors and the port that the environment
names. -/
def script (processors : Nat) (listenPort : Option String) (arguments : List String) : Script :=
  match CommandLine.read listenPort arguments with
  | .error flaw => explain flaw
  | .ok { command := .serve s, .. } => serve processors s
  | .ok { command := .aggregate a, .. } => aggregate a

end Coordination.Program
