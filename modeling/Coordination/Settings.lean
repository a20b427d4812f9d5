import Coordination.Json.Decoder
import Coordination.Rounds.Controller

/-! The settings of a process, their defaults, and what makes them unusable. -/

namespace Coordination

namespace Settings

structure Service where
  listenPort : UInt16
  deriving DecidableEq, Repr

structure Client where
  poolSize : Nat
  deriving DecidableEq, Repr

structure Locks where
  defaultTimeoutMs : Option UInt64
  deriving DecidableEq, Repr

structure Statistics where
  sampleIntervalMs : UInt64
  archiveDirectory : String
  deriving DecidableEq, Repr

inductive TaskOrder where
  | roundRobin
  | random
  deriving DecidableEq, Repr

def TaskOrder.name : TaskOrder → String
  | .roundRobin => "round_robin"
  | .random => "random"

inductive DispatchMode where
  | serial
  | parallel
  deriving DecidableEq, Repr

def DispatchMode.name : DispatchMode → String
  | .serial => "serial"
  | .parallel => "parallel"

structure Controller where
  order : TaskOrder
  seed : UInt64
  mode : DispatchMode
  maxConcurrent : Nat
  haltOnFailure : Bool
  deriving DecidableEq, Repr

end Settings

structure Settings where
  service : Settings.Service
  client : Settings.Client
  locks : Settings.Locks
  statistics : Settings.Statistics
  controller : Settings.Controller
  deriving DecidableEq, Repr

namespace Settings

/-! Defaults. -/

def Service.default : Service := ⟨9999⟩

/-- As many connections as there are processors, within bounds. -/
def Client.default (processors : Nat) : Client := ⟨min (max processors 2) 16⟩

def Locks.default : Locks := ⟨none⟩

def Statistics.default : Statistics := ⟨1000, "stats"⟩

def Controller.default : Controller := ⟨.roundRobin, 0, .serial, 0, true⟩

def default (processors : Nat) : Settings :=
  ⟨.default, .default processors, .default, .default, .default⟩

/-! Checks. -/

inductive Flaw where
  | noPort
  | noPool
  | noLockTimeout
  | noSampleInterval
  | noArchiveDirectory
  | concurrentButSerial (maxConcurrent : Nat)
  deriving DecidableEq, Repr

def Flaw.message : Flaw → String
  | .noPort => "service.listen_port must be non-zero"
  | .noPool => "client.pool_size must be at least 1"
  | .noLockTimeout => "locks.default_timeout_ms must be positive when set"
  | .noSampleInterval => "stats.sample_interval_ms must be positive"
  | .noArchiveDirectory => "stats.archive_dir must not be empty"
  | .concurrentButSerial maxConcurrent =>
      s!"controller.max_concurrent ({maxConcurrent}) requires mode = \"parallel\""

/-- What is wrong with the settings, in the order in which it is found. -/
def flaws (s : Settings) : List Flaw :=
  (if s.service.listenPort = 0 then [.noPort] else []) ++
  (if s.client.poolSize = 0 then [.noPool] else []) ++
  (if s.locks.defaultTimeoutMs = some 0 then [.noLockTimeout] else []) ++
  (if s.statistics.sampleIntervalMs = 0 then [.noSampleInterval] else []) ++
  (if s.statistics.archiveDirectory.isEmpty then [.noArchiveDirectory] else []) ++
  (if s.controller.mode = .serial ∧ 1 < s.controller.maxConcurrent then
    [.concurrentButSerial s.controller.maxConcurrent] else [])

def validate (s : Settings) : Except Flaw Unit :=
  match s.flaws with
  | [] => .ok ()
  | flaw :: _ => .error flaw

/-! JSON form. -/

def Controller.toJson (c : Controller) : Json :=
  .object [("order", .string c.order.name), ("seed", .ofNat c.seed.toNat),
    ("mode", .string c.mode.name), ("max_concurrent", .ofNat c.maxConcurrent),
    ("halt_on_failure", .bool c.haltOnFailure)]

def toJson (s : Settings) : Json :=
  .object [
    ("service", .object [("listen_port", .ofNat s.service.listenPort.toNat)]),
    ("client", .object [("pool_size", .ofNat s.client.poolSize)]),
    ("locks", .object [("default_timeout_ms",
      Json.ofOption (fun ms => .ofNat ms.toNat) s.locks.defaultTimeoutMs)]),
    ("stats", .object [("sample_interval_ms", .ofNat s.statistics.sampleIntervalMs.toNat),
      ("archive_dir", .string s.statistics.archiveDirectory)]),
    ("controller", s.controller.toJson)]

section Decoding

open Json Decoder

def Service.decoder : Decoder Service :=
  Record.decode "service settings"
    (mk <$> Record.defaulted "listen_port" Service.default.listenPort uint16)

def Client.decoder (processors : Nat) : Decoder Client :=
  Record.decode "client settings"
    (mk <$> Record.defaulted "pool_size" (Client.default processors).poolSize count)

def Locks.decoder : Decoder Locks :=
  Record.decode "lock settings" (mk <$> Record.optional "default_timeout_ms" uint64)

def Statistics.decoder : Decoder Statistics :=
  Record.decode "statistics settings"
    (mk <$> Record.defaulted "sample_interval_ms" Statistics.default.sampleIntervalMs uint64
      <*> Record.defaulted "archive_dir" Statistics.default.archiveDirectory string)

def TaskOrder.decoder : Decoder TaskOrder :=
  oneOf [("round_robin", Case.unit .roundRobin), ("random", Case.unit .random)]

def DispatchMode.decoder : Decoder DispatchMode :=
  oneOf [("serial", Case.unit .serial), ("parallel", Case.unit .parallel)]

def Controller.decoder : Decoder Controller :=
  let d := Controller.default
  Record.decode "controller settings"
    (mk <$> Record.defaulted "order" d.order TaskOrder.decoder
      <*> Record.defaulted "seed" d.seed uint64
      <*> Record.defaulted "mode" d.mode DispatchMode.decoder
      <*> Record.defaulted "max_concurrent" d.maxConcurrent count
      <*> Record.defaulted "halt_on_failure" d.haltOnFailure bool)

def decoder (processors : Nat) : Decoder Settings :=
  Record.decode "settings"
    (mk <$> Record.defaulted "service" .default Service.decoder
      <*> Record.defaulted "client" (.default processors) (Client.decoder processors)
      <*> Record.defaulted "locks" .default Locks.decoder
      <*> Record.defaulted "stats" .default Statistics.decoder
      <*> Record.defaulted "controller" .default Controller.decoder)

end Decoding

/-! Use. -/

def Controller.policy (c : Controller) : Policy :=
  match c.order with
  | .roundRobin => .roundRobin
  | .random => .random (.ofSeed c.seed)

def Controller.dispatch (c : Controller) : Mode :=
  match c.mode with
  | .serial => .serial
  | .parallel => .parallel c.maxConcurrent

/-- A controller of rounds as these settings want it. -/
def Controller.create {ω : Type} (c : Controller) (workers : List (Worker ω)) :
    Coordination.Controller ω :=
  { Coordination.Controller.create workers c.policy with
    mode := c.dispatch
    haltOnFailure := c.haltOnFailure }

/-- The settings with the port of the command line, if one is given there. -/
def withPort (port : Option UInt16) (s : Settings) : Settings :=
  match port with
  | none => s
  | some listenPort => { s with service := ⟨listenPort⟩ }

end Settings

end Coordination
