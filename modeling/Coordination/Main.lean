import Coordination.Program
import Coordination.Remote.Service
import Std.Async.Process
import Std.Async.Signal
import Std.Async.System
import Std.Async.TCP
import Std.Async.Timer
import Std.Internal.UV.System
import Std.Sync.Mutex
import Std.Time.DateTime.Timestamp

/-! Carrying out the program. -/

namespace Coordination.Main

open Std.Async

/-! Surroundings. -/

def processLabel : IO String := do
  return s!"{← System.getHostName}:{← Std.Internal.UV.System.osGetPid}"

def nowMs : IO UInt64 := do
  let now ← Std.Time.Timestamp.now
  return .ofInt now.toMillisecondsSinceUnixEpoch.val

def origin : IO AggregateReport.Origin := do
  return ⟨Calendar.formatMillis (← nowMs), ← processLabel⟩

def processors : IO Nat := do
  try return (← System.getCPUInfo).size
  catch _ => return 1

def readFile (path : String) : IO (Option Bytes) := do
  try return some (← IO.FS.readBinFile path).toList
  catch _ => return none

def writeFile (path : String) (content : Bytes) : IO Bool := do
  try
    IO.FS.writeBinFile path (ByteArray.mk content.toArray)
    return true
  catch _ => return false

/-! Serving. -/

abbrev Hosted := Std.Mutex (Dispatcher Host)

def say (client : TCP.Socket.Client) : List Arrival → Async Unit
  | [] => pure ()
  | .data bytes :: later => do
      client.send (ByteArray.mk bytes.toArray)
      say client later
  | _ :: later => say client later

/-- Answers the messages of a connection one after the other. One that has to wait is tried again
every millisecond. -/
partial def converse (service : Service) (hosted : Hosted) (client : TCP.Socket.Client)
    (waited : Nat) (session : Session) : Async Unit := do
  let done ← hosted.atomically do
    match service.due? waited session (← get) with
    | none => return none
    | some (said, after, dispatcher) =>
        set dispatcher
        return some (said, after)
  match done with
  | none =>
      sleep 1
      converse service hosted client (waited + 1) session
  | some (said, after) =>
      say client said
      if after.stage = .closed then client.shutdown
      else if after = session then
        match ← client.recv? 65536 with
        | none => client.shutdown
        | some bytes =>
            converse service hosted client 0
              { session with unread := session.unread ++ bytes.toList }
      else converse service hosted client 0 after

partial def acceptAll (service : Service) (hosted : Hosted) (server : TCP.Socket.Server) :
    Async Unit := do
  let client ← server.accept
  background do
    try
      client.noDelay
      converse service hosted client 0 .fresh
    catch _ => pure ()
  acceptAll service hosted server

def listenOn (port : UInt16) : IO TCP.Socket.Server := do
  let server ← TCP.Socket.Server.mk
  server.bind (.v4 ⟨.ofParts 0 0 0 0, port⟩)
  server.listen 1024
  return server

/-- Serves up to an interrupt. -/
def serve (port : UInt16) : IO (Except BindFlaw Host) := do
  let opened ← (listenOn port).toBaseIO
  match opened with
  | .error reason => return .error ⟨port, toString reason⟩
  | .ok server =>
      let hosted ← Std.Mutex.new (Host.install .empty)
      let interrupt ← Signal.Waiter.mk .sigint false
      let service : Service := ⟨← processLabel, "task"⟩
      Async.block (background (acceptAll service hosted server))
      discard <| (← interrupt.wait).block
      let dispatcher ← hosted.atomically get
      return .ok ((dispatcher.classes.get? Host.className).getD .empty)

/-! Scripts. -/

def carryOut : Script → IO UInt32
  | .exit code => return code.toUInt32
  | .print text next => do
      IO.print text
      carryOut next
  | .complain text next => do
      IO.eprint text
      carryOut next
  | .readFile path next => do carryOut (next (← readFile path))
  | .writeFile path content next => do carryOut (next (← writeFile path content))
  | .askOrigin next => do carryOut (next (← origin))
  | .serve port next => do carryOut (next (← serve port))

end Coordination.Main

def main (arguments : List String) : IO UInt32 := do
  let listenPort ← IO.getEnv "HYDRA_LISTEN_PORT"
  Coordination.Main.carryOut
    (Coordination.Program.script (← Coordination.Main.processors) listenPort arguments)
