/-!
# Faults of the system

What files and the network can fail with, and the text that the system has for it.
-/

namespace Routing

/-- Why the system did not do what it was asked for. -/
inductive Fault where
  /-- There is no such file. -/
  | missing
  /-- There is a file already. -/
  | taken
  /-- A path leads through something that is no directory. -/
  | notDirectory
  /-- A directory stands where a file is needed. -/
  | isDirectory
  /-- The name of a file is too long. -/
  | nameTooLong
  /-- The system does not do this. -/
  | unsupported
  /-- Something else listens at the address. -/
  | addressInUse
  /-- There is no way to the address. -/
  | unreachable
  /-- There is a zero character in a name. -/
  | zeroInName
  /-- The content of a file is not text. -/
  | notText
deriving DecidableEq

/-- The text of a fault. -/
def Fault.message : Fault → String
  | .missing => "No such file or directory (os error 2)"
  | .taken => "File exists (os error 17)"
  | .notDirectory => "Not a directory (os error 20)"
  | .isDirectory => "Is a directory (os error 21)"
  | .nameTooLong => "File name too long (os error 36)"
  | .unsupported => "Operation not supported (os error 95)"
  | .addressInUse => "Address already in use (os error 98)"
  | .unreachable => "Network is unreachable (os error 101)"
  | .zeroInName => "file name contained an unexpected NUL byte"
  | .notText => "stream did not contain valid UTF-8"

end Routing
