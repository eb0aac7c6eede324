import Routing.Config.Comments
import Routing.Config.Printer
import Routing.Config.Reader
import Routing.FileTree

/-!
# Configuration files

A configuration is loaded from a file, which `setUp` writes first if the program is started without
one and has none in the home directory.
-/

namespace Routing.Config

/-- Why there is no configuration. -/
inductive LoadError where
  /-- There is no file. -/
  | missing (path : String)
  /-- The file cannot be read or written. -/
  | unreadable (f : Fault)
  /-- The file does not hold settings. -/
  | malformed (path : String)
deriving DecidableEq

/-- The message of an error. What the reader says after a dash about a malformed file is left
out. -/
def LoadError.message : LoadError → String
  | .missing path => "Configuration file not found: " ++ path
  | .unreadable f => "Error loading config file: " ++ f.message ++ " "
  | .malformed path => "Error parsing configuration file at " ++ path ++ " - "

/-- The configuration in a file. -/
def Configuration.load (t : FileTree) (path : String) : Except LoadError Configuration :=
  if !t.holds path then .error (.missing path)
  else
    match t.readText path with
    | .error f => .error (.unreadable f)
    | .ok text =>
      match Settings.ofText? text with
      | some s => .ok { path := some path, settings := some s }
      | none => .error (.malformed path)

/-- The tree with a file that holds the settings of a configuration, and comments. -/
def Configuration.write (c : Configuration) (t : FileTree) (path : String) :
    Except Fault FileTree :=
  t.write path (Text.Utf8.encode (Comments.explain c.render))

/-- The path of the directory for the configuration below a home directory. -/
def directoryBelow (home : String) : String :=
  FileTree.join home ".pathway"

/-- The path of the configuration file below a home directory. -/
def pathBelow (home : String) : String :=
  FileTree.join (directoryBelow home) "pathway.toml"

/-- The tree with a configuration file below a home directory. -/
def provide (t : FileTree) (home : String) : Except Fault FileTree := do
  let t ← if t.holds (directoryBelow home) then .ok t else t.makeDirectories (directoryBelow home)
  if t.holds (pathBelow home) then .ok t else Configuration.write {} t (pathBelow home)

/-- The configuration in the file that is given, or else in the one below the home directory, and
the tree afterwards. -/
def setUp (t : FileTree) (home : String) (given : Option String) :
    Except LoadError Configuration × FileTree :=
  match given with
  | some path => (Configuration.load t path, t)
  | none =>
    match provide t home with
    | .error f => (.error (.unreadable f), t)
    | .ok t => (Configuration.load t (pathBelow home), t)

end Routing.Config
