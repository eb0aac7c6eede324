import Routing.CommandLine
import Routing.Config.Load
import Routing.Demo
import Routing.Journal
import Routing.Listener
import Routing.Text.Variables

/-!
# The program

The program sets itself up from its command line and its configuration, and serves the demo service
until a request ends it. Everything that it does is a function of the environment it runs in. If no
request ends the service, the program still runs after the last one.
-/

namespace Routing.Program

/-- What the program runs in. -/
structure Environment where
  /-- The files. -/
  files : FileTree
  /-- The path of the home directory. -/
  home : String
  /-- The variables that are set, with their values. -/
  vars : Dict String
  /-- Looks up the address of a machine by its name. -/
  lookup : String → Except String Host
  /-- Takes a place to listen at. -/
  bind : Address → Except Fault Address
  /-- The requests that come in. -/
  requests : List Wire.Request := []

/-- What the program leaves behind. -/
structure Report where
  /-- The exit code, unless the program still runs. -/
  code : Option UInt32
  /-- The standard output. -/
  stdout : String := ""
  /-- The standard error output. -/
  stderr : String := ""
  /-- The files. -/
  files : FileTree
  /-- The responses that went out. -/
  responses : List Wire.Response := []

/-- What serving comes to. -/
structure Service where
  /-- Why it could not start. -/
  failure : Option Error := none
  /-- Whether it goes on after the last request. -/
  isRunning : Bool := false
  /-- The responses that went out. -/
  responses : List Wire.Response := []
  /-- The records told. -/
  log : List Log.Record := []

/-- The component that starts the program. -/
def origin : String := "pathway"

/-- The component that runs the service. -/
def serviceOrigin : String := "pathway::cmd::server"

/-- Serves requests until one of them ends the service. -/
def serve (s : Server Demo.State) (state : Demo.State) :
    List Wire.Request → List Wire.Response × Server Demo.State × Demo.State × List Log.Record
  | [] => ([], s, state, [])
  | req :: rs =>
    let (response, s, state, log) := Wire.serve s state req
    if state.running then
      let (responses, s, state, more) := serve s state rs
      (response :: responses, s, state, log ++ more)
    else ([response], s, state, log)

/-- Tells what was counted. -/
def statsRecord (s : Stats) : Log.Record :=
  ⟨.info, serviceOrigin, "served " ++ toString s.requests.toNat ++ " requests, "
    ++ toString s.unknownRequests.toNat ++ " unknown, " ++ toString s.exceptions.toNat ++ " failed"⟩

/-- Runs the service with settings. -/
def runService (env : Environment) (settings : Config.ServerSettings) : Service :=
  match Address.resolve env.lookup settings.bindAddress settings.bindPort with
  | .error e => { failure := some e }
  | .ok address =>
    let (server, newLog) := Server.new settings.basePath settings.serviceName
    match Demo.register server with
    | (.error e, log) => { failure := some e, log := newLog ++ log }
    | (.ok server, log) =>
      let log := newLog ++ log
      match ({} : Listener).start env.bind address with
      | (.error e, more) => { failure := some e, log := log ++ more }
      | (.ok (place, listener), more) =>
        let (responses, server, state, served) := serve server {} env.requests
        let log := log ++ more
          ++ ⟨.warn, serviceOrigin, "Service listening on " ++ place.text⟩ :: served
        if state.running then { isRunning := true, responses, log }
        else
          let (_, _, stopped) := listener.stop
          { responses
            log := log ++ ⟨.warn, serviceOrigin, "Shutting down..."⟩ :: stopped
              ++ [statsRecord server.stats, ⟨.warn, serviceOrigin, "Shutdown complete."⟩] }

/-- The settings of the server, with what the command line says in their place; a port that is not
one stands in the error. -/
def override (options : CommandLine.Options) (s : Config.ServerSettings) :
    Except String Config.ServerSettings :=
  let s := { s with bindAddress := options.address.getD s.bindAddress }
  match options.port with
  | none => .ok s
  | some port =>
    match Text.Numeral.unsigned? (UInt16.size - 1) port.toList with
    | some n => .ok { s with bindPort := n.toUInt16 }
    | none => .error port

/-- Tells which file the configuration is from. -/
def configurationLog (c : Config.Configuration) : List Log.Record :=
  match c.path with
  | some path => [⟨.info, origin, "Using configuration file at " ++ path⟩]
  | none => []

/-- Tells why the service could not start. -/
def failureLog : Option Error → List Log.Record
  | some e => [⟨.error, origin, "Failed to start service: " ++ e.message⟩]
  | none => []

/-- The exit code of a crash. -/
def crashCode : UInt32 := 101

/-- The exit code after a service, unless it still runs. -/
def Service.code? (s : Service) : Option UInt32 :=
  if s.isRunning then none else if s.failure.isSome then some 1 else some 0

/-- Where the journal goes: variables in the path of its file stand for their values. -/
def journal (env : Environment) (c : Config.Configuration) : Option Config.LogSettings :=
  c.log.map fun l =>
    { l with filePath := Text.Variables.expand env.vars.get? l.filePath }

/-- Runs the service with a configuration, and writes the journal. -/
def runConfigured (env : Environment) (c : Config.Configuration) (s : Config.ServerSettings) :
    Report :=
  let service := runService env s
  let report : Report :=
    { code := service.code?, files := env.files, responses := service.responses }
  match journal env c with
  | none => report
  | some l =>
    let records := Journal.openingRecord l :: configurationLog c ++ service.log
      ++ failureLog service.failure
    match Journal.inFile l env.files records with
    | .ok files => { report with stdout := Journal.onStdout l records, files }
    | .error f =>
      { code := some crashCode, stderr := "Failed to create logfile: " ++ f.message ++ "\n",
        files := env.files }

/-- Sets up the configuration and runs the service. -/
def runStart (env : Environment) (options : CommandLine.Options) : Report :=
  let (loaded, files) := Config.setUp env.files env.home options.config
  let refused (text : String) : Report := { code := some 1, stderr := text ++ "\n", files }
  match loaded with
  | .error e => refused ("Error loading pathway configuration: " ++ e.message)
  | .ok c =>
    match override options c.server with
    | .error port => refused ("Invalid port " ++ Text.quoted port)
    | .ok s => runConfigured { env with files } c s

/-- Runs the program with the words of its command line. -/
def run (env : Environment) (words : List String) : Report :=
  match CommandLine.parse words with
  | .help => { code := some 0, stdout := CommandLine.helpText ++ "\n", files := env.files }
  | .version => { code := some 0, stdout := CommandLine.versionText ++ "\n", files := env.files }
  | .misuse => { code := some 1, stderr := "(usage error)", files := env.files }
  | .start options => runStart env options

/-- The configuration that the program finds, as far as the files at hand tell. -/
def configuration? (env : Environment) (options : CommandLine.Options) :
    Option Config.Configuration :=
  (Config.setUp env.files env.home options.config).1.toOption

/-- The names of the variables that the program refers to, as far as the files at hand tell. -/
def variableNames (env : Environment) (words : List String) : List String :=
  match CommandLine.parse words with
  | .start options =>
    match (configuration? env options).bind (·.log) with
    | some l => (Text.Variables.names l.filePath.toList).map String.ofList
    | none => []
  | _ => []

/-- The paths of the files that the program reads and writes, as far as the files at hand tell. -/
def paths (env : Environment) (words : List String) : List String :=
  match CommandLine.parse words with
  | .start options =>
    let path := options.config.getD (Config.pathBelow env.home)
    match (configuration? env options).bind (journal env) with
    | some l => if l.toFile then [path, l.filePath] else [path]
    | none => [path]
  | _ => []

end Routing.Program
