import Coordination.Bytes
import Coordination.Settings
import Coordination.Toml.Decoder
import Coordination.Toml.Reader

/-! Settings from files. -/

namespace Coordination.Settings

open Toml (Fields)

def word? (v : Toml) : Option UInt64 := (v.asNatural? UInt64.size).map .ofNat

def Service.ofToml? (v : Toml) : Option Service := do
  let fields ← Fields.of? v
  let listenPort ← fields.withDefault? "listen_port" 0 Service.default.listenPort fun v =>
    (v.asNatural? UInt16.size).map .ofNat
  return ⟨listenPort⟩

def Client.ofToml? (processors : Nat) (v : Toml) : Option Client := do
  let fields ← Fields.of? v
  let poolSize ← fields.withDefault? "pool_size" 0 (Client.default processors).poolSize fun v =>
    v.asNatural? UInt64.size
  return ⟨poolSize⟩

def Locks.ofToml? (v : Toml) : Option Locks := do
  let fields ← Fields.of? v
  return ⟨← fields.optional? "default_timeout_ms" 0 word?⟩

def Statistics.ofToml? (v : Toml) : Option Statistics := do
  let fields ← Fields.of? v
  let d := Statistics.default
  let interval ← fields.withDefault? "sample_interval_ms" 0 d.sampleIntervalMs word?
  let directory ← fields.withDefault? "archive_dir" 1 d.archiveDirectory Toml.asString?
  return ⟨interval, directory⟩

def Controller.ofToml? (v : Toml) : Option Controller := do
  let fields ← Fields.of? v
  let d := Controller.default
  let order ← fields.withDefault? "order" 0 d.order
    (Toml.oneOf? [("round_robin", .roundRobin), ("random", .random)])
  let seed ← fields.withDefault? "seed" 1 d.seed word?
  let mode ← fields.withDefault? "mode" 2 d.mode
    (Toml.oneOf? [("serial", .serial), ("parallel", .parallel)])
  let maxConcurrent ← fields.withDefault? "max_concurrent" 3 d.maxConcurrent fun v =>
    v.asNatural? UInt64.size
  let haltOnFailure ← fields.withDefault? "halt_on_failure" 4 d.haltOnFailure Toml.asBool?
  return ⟨order, seed, mode, maxConcurrent, haltOnFailure⟩

def ofToml? (processors : Nat) (v : Toml) : Option Settings := do
  let fields ← Fields.of? v
  let service ← fields.withDefault? "service" 0 .default Service.ofToml?
  let client ← fields.withDefault? "client" 1 (.default processors) (Client.ofToml? processors)
  let locks ← fields.withDefault? "locks" 2 .default Locks.ofToml?
  let statistics ← fields.withDefault? "stats" 3 .default Statistics.ofToml?
  let controller ← fields.withDefault? "controller" 4 .default Controller.ofToml?
  return ⟨service, client, locks, statistics, controller⟩

/-- Settings in a text, with the defaults of a machine with so many processors. -/
def ofText? (processors : Nat) (text : String) : Option Settings :=
  (Toml.parse? text).bind (ofToml? processors)

/-! Loading. -/

inductive LoadFlaw where
  | notRead (path : String)
  | notParsed (path : String)
  | invalid (flaw : Flaw)
  deriving DecidableEq

def LoadFlaw.message : LoadFlaw → String
  | .notRead path => "Failed to read config file: " ++ path
  | .notParsed path => "Failed to parse config file: " ++ path
  | .invalid flaw => flaw.message

/-- What a text that is no settings is answered with. -/
def notParsed : String := "Failed to parse TOML configuration"

/-- Settings in the content of a file, if that was read; it has to be UTF-8. -/
def ofContent (processors : Nat) (path : String) (content : Option Bytes) :
    Except LoadFlaw Settings :=
  match content.bind Bytes.toString? with
  | none => .error (.notRead path)
  | some text =>
      match ofText? processors text with
      | none => .error (.notParsed path)
      | some s => .ok s

/-- Checked settings for serving, with the port of the command line put in. -/
def finish (port : Option UInt16) (s : Settings) : Except LoadFlaw Settings := do
  let s := s.withPort port
  s.validate.mapError .invalid
  return s

/-- Loads the settings for serving, from a file if one is named. -/
def load (processors : Nat) (port : Option UInt16) (file : Option (String × Option Bytes)) :
    Except LoadFlaw Settings := do
  match file with
  | none => finish port (default processors)
  | some (path, content) => finish port (← ofContent processors path content)

end Coordination.Settings
