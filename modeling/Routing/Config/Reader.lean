import Routing.Config.Basic
import Routing.Toml.Document

/-!
# Reading of settings

Settings are the fields of a TOML document. What is absent has its default; a key that is not
known is passed over, and one that is known may come once only.
-/

namespace Routing.Config

/-- Reads a field, which has a default. -/
def fieldOr {α : Type} (default : α) (decode : Toml.Value → Option α) : Option Toml.Value → Option α
  | none => some default
  | some v => decode v

/-- A text. -/
def text? : Toml.Value → Option String
  | .text s => some s
  | _ => none

/-- A truth value. -/
def boolean? : Toml.Value → Option Bool
  | .boolean b => some b
  | _ => none

/-- A whole number below a bound. -/
def natural? (bound : Nat) : Toml.Value → Option Nat
  | .integer n => if 0 ≤ n ∧ n < bound then some n.toNat else none
  | _ => none

/-- The level with a name. -/
def levelOfName? (name : String) : Option Log.Level :=
  [Log.Level.error, .warn, .info, .debug, .trace].find? fun l => levelName l = name

/-- A level. It is a text, or the key of a table in braces whose value is an empty table. In a
document whose only section is empty, a header is a level by its last name, which `sole` gives. -/
def level? (sole : Option String) : Toml.Value → Option Log.Level
  | .text s => levelOfName? s
  | .table .braces [(name, .table .braces [])] => levelOfName? name
  | .table .header _ => sole.bind levelOfName?
  | _ => none

/-- The names of the settings of the server. -/
def serverNames : List String :=
  ["bind_address", "bind_port", "base_path", "service_name"]

/-- The settings of the server. -/
def serverSettings? (v : Toml.Value) : Option ServerSettings :=
  match v.fields? serverNames with
  | some [address, port, base, service] => do
    let standard : ServerSettings := {}
    let bindAddress ← fieldOr standard.bindAddress text? address
    let bindPort ← fieldOr standard.bindPort
      (fun v => (natural? UInt16.size v).map Nat.toUInt16) port
    let basePath ← fieldOr standard.basePath text? base
    let serviceName ← fieldOr standard.serviceName text? service
    some { bindAddress, bindPort, basePath, serviceName }
  | _ => none

/-- The names of the settings of the log. -/
def logNames : List String :=
  ["log_to_stdout", "stdout_log_level", "log_to_file", "file_log_level", "log_file_path",
    "log_file_append", "log_max_size", "log_max_files"]

/-- The settings of the log. -/
def logSettings? (sole : Option String) (v : Toml.Value) : Option LogSettings :=
  match v.fields? logNames with
  | some [stdout, stdoutL, file, fileL, path, append, size, files] => do
    let standard : LogSettings := {}
    let toStdout ← fieldOr standard.toStdout boolean? stdout
    let stdoutLevel ← fieldOr standard.stdoutLevel (level? sole) stdoutL
    let toFile ← fieldOr standard.toFile boolean? file
    let fileLevel ← fieldOr standard.fileLevel (level? sole) fileL
    let filePath ← fieldOr standard.filePath text? path
    let append ← fieldOr standard.append boolean? append
    let maxSize ← fieldOr standard.maxSize
      (fun v => (natural? UInt64.size v).map fun n => some n.toUInt64) size
    let maxFiles ← fieldOr standard.maxFiles
      (fun v => (natural? UInt32.size v).map Nat.toUInt32) files
    some { toStdout, stdoutLevel, toFile, fileLevel, filePath, append, maxSize, maxFiles }
  | _ => none

/-- The settings in a table of a document. -/
def settings? (sole : Option String) (es : Toml.Entries) : Option Settings :=
  match Toml.singles? es ["server", "logging"] with
  | some [server, log] => do
    let server ← fieldOr {} serverSettings? server
    let log ← fieldOr none (fun v => (logSettings? sole v).map some) log
    some { server, log }
  | _ => none

/-- The settings that a text holds. -/
def Settings.ofText? (text : String) : Option Settings :=
  match Toml.Document.ofText? text with
  | none => none
  | some d => d.table?.bind (settings? d.soleName?)

end Routing.Config
