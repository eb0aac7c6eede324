/-!
# Log records

What happens is told in records, which the functions of this library return beside their results.
-/

namespace Routing.Log

/-- How urgent a record is. -/
inductive Level where
  /-- Something failed. -/
  | error
  /-- Something looks wrong. -/
  | warn
  /-- A milestone. -/
  | info
  /-- A detail. -/
  | debug
  /-- A small detail. -/
  | trace
deriving DecidableEq

namespace Level

/-- The place of a level among the levels, most urgent first. -/
def rank : Level → Nat
  | .error => 1
  | .warn => 2
  | .info => 3
  | .debug => 4
  | .trace => 5

/-- The text of a level in a record. -/
def text : Level → String
  | .error => "ERROR"
  | .warn => "WARN"
  | .info => "INFO"
  | .debug => "DEBUG"
  | .trace => "TRACE"

/-- The name of a level in a sentence. -/
def name : Level → String
  | .error => "Error"
  | .warn => "Warn"
  | .info => "Info"
  | .debug => "Debug"
  | .trace => "Trace"

end Level

/-- A record. -/
structure Record where
  /-- How urgent it is. -/
  level : Level
  /-- The component it is from. -/
  origin : String
  /-- What it tells. -/
  text : String
deriving DecidableEq

/-- The level and text of a record. -/
def Record.summary (r : Record) : String :=
  r.level.text ++ " " ++ r.text

/-- The level, origin and text of a record. -/
def Record.line (r : Record) : String :=
  r.level.text ++ " " ++ r.origin ++ " - " ++ r.text

end Routing.Log
