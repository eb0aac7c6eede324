import Routing.Log

/-!
# Settings

What a configuration file sets, with the values that hold where it says nothing.
-/

namespace Routing.Config

/-- The settings of the server. -/
structure ServerSettings where
  /-- The address to listen at. -/
  bindAddress : String := "0.0.0.0"
  /-- The port to listen at. -/
  bindPort : UInt16 := 8080
  /-- The path below which everything is served. -/
  basePath : String := ""
  /-- The name that the service gives itself. -/
  serviceName : String := "pathway"
deriving DecidableEq

/-- The address and port to listen at. -/
def ServerSettings.listenAddress (s : ServerSettings) : String :=
  s.bindAddress ++ ":" ++ toString s.bindPort.toNat

/-- The settings of the log. -/
structure LogSettings where
  /-- Whether records go to the standard output. -/
  toStdout : Bool := true
  /-- The least urgent level that goes there. -/
  stdoutLevel : Log.Level := .warn
  /-- Whether records go to a file. -/
  toFile : Bool := false
  /-- The least urgent level that goes there. -/
  fileLevel : Log.Level := .info
  /-- The path of the file. -/
  filePath : String := "pathway.log"
  /-- Whether what is in the file already stays. -/
  append : Bool := true
  /-- The size in bytes from which on another file is begun. -/
  maxSize : Option UInt64 := some 16777216
  /-- How many files are kept. -/
  maxFiles : UInt32 := 32
deriving DecidableEq

/-- All settings. -/
structure Settings where
  /-- The settings of the server. -/
  server : ServerSettings := {}
  /-- The settings of the log, if there is one. -/
  log : Option LogSettings := none
deriving DecidableEq

/-- The settings that a new configuration file gets. -/
def Settings.initial : Settings :=
  { log := some {} }

/-- A configuration: settings, and the file that they are from. -/
structure Configuration where
  /-- The path of the file. -/
  path : Option String := none
  /-- The settings. -/
  settings : Option Settings := some Settings.initial
deriving DecidableEq

/-- The settings of the server. -/
def Configuration.server (c : Configuration) : ServerSettings :=
  (c.settings.map Settings.server).getD {}

/-- The settings of the log, if there is one. -/
def Configuration.log (c : Configuration) : Option LogSettings :=
  c.settings.bind Settings.log

/-- The name of a level in a configuration file. -/
def levelName : Log.Level → String
  | .error => "Error"
  | .warn => "Warning"
  | .info => "Info"
  | .debug => "Debug"
  | .trace => "Trace"

end Routing.Config
