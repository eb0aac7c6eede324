import Routing.Text.Blank
import Routing.Text.Split

/-!
# Comments on settings

The headers and settings of a configuration file are explained by comments, which `explain` puts in
front of their lines.
-/

namespace Routing.Config.Comments

/-- The comments, by header or name of a setting. Each starts with an empty line. -/
def blocks : List (String × String) := [
  ("[server]",
    "\n# Generated Server Configuration File for Pathway\n#\n"
      ++ "# When running the pathway executable without a --config argument,\n"
      ++ "# it will look for this file in [user home]/.pathway\n#\n\n"
      ++ "#########################################\n"
      ++ "### SERVER CONFIGURATION              ###\n"
      ++ "#########################################\n"),
  ("bind_address",
    "\n#the address the HTTP listener binds to, 0.0.0.0 for all interfaces\n"),
  ("bind_port", "\n#the port the HTTP listener binds to\n"),
  ("base_path", "\n#path prefix of every served URL, empty to serve from the root\n"),
  ("service_name", "\n#name announced in the Server header of every response\n"),
  ("[logging]",
    "\n#########################################\n"
      ++ "### LOGGING CONFIGURATION             ###\n"
      ++ "#########################################\n"),
  ("log_to_stdout", "\n#whether to log to stdout\n"),
  ("stdout_log_level", "\n#log level for stdout: Error, Warning, Info, Debug, Trace\n"),
  ("log_to_file", "\n#whether to log to a file\n"),
  ("file_log_level", "\n#log level for file: Error, Warning, Info, Debug, Trace\n"),
  ("log_file_path", "\n#log file path\n"),
  ("log_file_append",
    "\n#whether to append to the log file (true), or replace it on every run (false)\n"),
  ("log_max_size",
    "\n#maximum log file size in bytes before performing log rotation\n"
      ++ "#comment it to disable log rotation\n"),
  ("log_max_files", "\n#maximum count of the log files to rotate over\n")]

/-- What a line is explained by: a line with brackets by itself, and another line by what stands
before its equals sign, blanks aside. -/
def subject? (line : List Char) : Option String :=
  if line.contains '[' && line.contains ']' then some (String.ofList line)
  else if line.contains '=' then
    some (String.ofList (Text.trim Text.isBlank (line.takeWhile fun c => c ≠ '=')))
  else none

/-- The comment on a line, which may be empty. -/
def block (line : List Char) : List Char :=
  match subject? line with
  | some s => ((blocks.lookup s).getD "").toList
  | none => []

/-- A line with its comment in front and a line feed after it. -/
def explainLine (line : List Char) : List Char :=
  block line ++ line ++ ['\n']

/-- A text with a comment in front of each line that has one. -/
def explainChars (text : List Char) : List Char :=
  (Text.split '\n' text).flatMap explainLine

/-- A text with a comment in front of each line that has one. -/
def explain (text : String) : String :=
  String.ofList (explainChars text.toList)

end Routing.Config.Comments
