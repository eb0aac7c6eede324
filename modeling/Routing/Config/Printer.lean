import Routing.Config.Basic
import Routing.Toml.Quoted

/-!
# Printing of settings

Each group of settings is written under its header, one setting to a line.
-/

namespace Routing.Config

/-- The line of a setting, given what is written for its value. -/
def assignment (name value : String) : String :=
  name ++ " = " ++ value ++ "\n"

/-- A text between quotes. -/
def quoted (s : String) : String :=
  String.ofList (Toml.Quoted.encode s.toList)

/-- The word for a truth value. -/
def truth (b : Bool) : String :=
  if b then "true" else "false"

/-- The lines of the settings of the server. -/
def ServerSettings.render (s : ServerSettings) : String :=
  "[server]\n" ++ assignment "bind_address" (quoted s.bindAddress)
    ++ assignment "bind_port" (toString s.bindPort.toNat)
    ++ assignment "base_path" (quoted s.basePath)
    ++ assignment "service_name" (quoted s.serviceName)

/-- The lines of the settings of the log; without a size there is no line for it. -/
def LogSettings.render (s : LogSettings) : String :=
  "[logging]\n" ++ assignment "log_to_stdout" (truth s.toStdout)
    ++ assignment "stdout_log_level" (quoted (levelName s.stdoutLevel))
    ++ assignment "log_to_file" (truth s.toFile)
    ++ assignment "file_log_level" (quoted (levelName s.fileLevel))
    ++ assignment "log_file_path" (quoted s.filePath)
    ++ assignment "log_file_append" (truth s.append)
    ++ (match s.maxSize with
      | some n => assignment "log_max_size" (toString n.toNat)
      | none => "")
    ++ assignment "log_max_files" (toString s.maxFiles.toNat)

/-- The lines of all settings. -/
def Settings.render (s : Settings) : String :=
  s.server.render ++
    match s.log with
    | some l => "\n" ++ l.render
    | none => ""

/-- The lines of the settings of a configuration; those of a new file if it has none. -/
def Configuration.render (c : Configuration) : String :=
  (c.settings.getD Settings.initial).render

end Routing.Config
