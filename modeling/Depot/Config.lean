import Depot.Gateway.Basic
import Depot.SocketAddress
import Depot.Store.Upload
import Depot.Toml.Parser

/-! # Configuration

A gateway is configured by a TOML document. All that is not set has a usual value, and keys that
mean nothing are ignored. Tables may also be written as arrays of their fields in order.
-/

namespace Depot

inductive LogFormat where
  /-- Text for people. -/
  | pretty
  /-- One JSON object a line. -/
  | json
  deriving DecidableEq, Repr

structure LogConfig where
  filter : String := "info"
  format : LogFormat := .pretty
  deriving DecidableEq, Repr

inductive RegistryConfig where
  | memory
  deriving DecidableEq, Repr

inductive QueueConfig where
  | memory
  deriving DecidableEq, Repr

/-- 127.0.0.1:8080, which only the machine itself can reach. -/
def SocketAddress.usual : SocketAddress := .v4 ⟨[127, 0, 0, 1], rfl⟩ 8080

structure Config where
  listen : SocketAddress := .usual
  registry : RegistryConfig := .memory
  queue : QueueConfig := .memory
  limits : Limits := {}
  log : LogConfig := {}
  deriving DecidableEq, Repr

inductive ConfigError where
  | unreadable (path : String)
  | malformed
  | limits (cause : LimitsError)
  deriving DecidableEq, Repr

def ConfigError.message : ConfigError → String
  | .unreadable path => "reading config from " ++ path
  | .malformed => "parsing config"
  | .limits cause => cause.message

namespace Toml

/-- The fields of a record by position and key, if the value is one. -/
def Value.fields? : Value → Option (Nat → String → Option Value)
  | .table _ entries => some fun _ key => Entries.find? entries key
  | .array items => some fun position _ => items[position]?
  | .tables elements => some fun position _ => elements[position]?.map (.table .header)
  | .moment => some fun _ _ => none
  | .string _ | .integer _ | .float | .boolean _ => none

def Value.text? : Value → Option String
  | .string text => some text
  | _ => none

def Value.size? : Value → Option Nat
  | .integer n => if 0 ≤ n then some n.toNat else none
  | _ => none

/-- The name of a choice without details, written alone or as the only key of a table. -/
def Value.choice? : Value → Option String
  | .string text => some text
  | .table _ [(name, .table _ [])] => some name
  | .table _ [(name, .array [])] => some name
  | _ => none

def orUsual {α : Type} (usual : α) (read : Value → Option α) (value : Option Value) : Option α :=
  match value with
  | none => some usual
  | some value => read value

end Toml

open Toml (Value orUsual)

def Limits.ofToml? (value : Value) : Option Limits := do
  let usual : Limits := {}
  let field ← value.fields?
  let fieldMaxSize ← orUsual usual.fieldMaxSize Value.size? (field 0 "field-max-size")
  let tagBudget ← orUsual usual.tagBudget Value.size? (field 1 "tag-budget")
  let chunkSize ← orUsual usual.chunkSize Value.size? (field 2 "chunk-size")
  let maxBodySize ←
    orUsual usual.maxBodySize (fun value => value.size?.map some) (field 3 "max-body-size")
  let manifestInputMax ←
    orUsual usual.manifestInputMax Value.size? (field 4 "manifest-input-max")
  some { fieldMaxSize, tagBudget, chunkSize, maxBodySize, manifestInputMax }

def LogFormat.ofName? (name : String) : Option LogFormat :=
  if name = "pretty" then some .pretty else if name = "json" then some .json else none

def LogConfig.ofToml? (value : Value) : Option LogConfig := do
  let usual : LogConfig := {}
  let field ← value.fields?
  let filter ← orUsual usual.filter Value.text? (field 0 "filter")
  let format ←
    orUsual usual.format (fun value => value.choice?.bind LogFormat.ofName?) (field 1 "format")
  some { filter, format }

def RegistryConfig.ofName? (name : String) : Option RegistryConfig :=
  if name = "memory" then some .memory else none

def QueueConfig.ofName? (name : String) : Option QueueConfig :=
  if name = "memory" then some .memory else none

namespace Config

def ofEntries? (entries : Toml.Entries) : Option Config := do
  let usual : Config := {}
  let field := entries.find?
  let listen ← orUsual usual.listen (fun value => value.text?.bind SocketAddress.parse?)
    (field "listen")
  let registry ← orUsual usual.registry (fun value => value.choice?.bind RegistryConfig.ofName?)
    (field "registry")
  let queue ← orUsual usual.queue (fun value => value.choice?.bind QueueConfig.ofName?)
    (field "queue")
  let limits ← orUsual usual.limits Limits.ofToml? (field "limits")
  let log ← orUsual usual.log LogConfig.ofToml? (field "log")
  some { listen, registry, queue, limits, log }

/-- The configuration that a document describes; its limits are checked last. -/
def parse (text : String) : Except ConfigError Config :=
  match (Toml.parse? text).bind ofEntries? with
  | none => .error .malformed
  | some config =>
    match config.limits.validate with
    | .error error => .error (.limits error)
    | .ok limits => .ok { config with limits }

def ofFile (path : String) (content : Option ByteArray) : Except ConfigError Config :=
  match content.bind String.fromUTF8? with
  | none => .error (.unreadable path)
  | some text => parse text

def gateway (config : Config) (wording : Wording) : Gateway Store Upload :=
  { registry := Store.registry, wording, limits := config.limits }

end Config

end Depot
