import Routing.Program

/-!
# The executable

Reads the files that the program needs, runs it, and writes what it leaves behind. Places to listen
at cannot be taken here, so the service ends with the fault of that.
-/

namespace Routing.Main

/-- The tree with what is at a path of the system. -/
def load (t : FileTree) (path : String) : IO FileTree := do
  let placed (t : FileTree) (f : FileTree → Except Fault FileTree) : FileTree :=
    match (t.makeDirectories (FileTree.directoryOf path)).bind f with
    | .ok t => t
    | .error _ => t
  match ← (IO.FS.readBinFile path).toBaseIO with
  | .ok bytes => return placed t (·.write path bytes.toList)
  | .error (.noFileOrDirectory ..) => return t
  | .error _ => return placed t (·.makeDirectories path)

/-- Writes the file at a path if it is not what it was before. -/
def store (before after : FileTree) (path : String) : IO Unit := do
  match after.read path with
  | .error _ => return
  | .ok content =>
    if (before.read path).toOption ≠ some content then
      unless FileTree.directoryOf path = "" do
        IO.FS.createDirAll (FileTree.directoryOf path)
      IO.FS.writeBinFile path ⟨content.toArray⟩

/-- What the program runs in here. -/
def environment (files : FileTree) (home : String) (vars : Dict String) :
    Program.Environment :=
  { files, home, vars
    lookup := fun _ => .error Fault.unsupported.message
    bind := fun _ => .error .unsupported }

/-- The variables of the system that have a value, among some. -/
def readVariables (names : List String) : IO (Dict String) :=
  names.foldlM (fun d name => return ((← IO.getEnv name).map (d.set name)).getD d) .empty

end Routing.Main

open Routing in
/-- Runs the program with the words of its command line. -/
def main (words : List String) : IO UInt32 := do
  let home := (← IO.getEnv "HOME").getD ""
  let inputs (t : FileTree) (vars : Dict String) :=
    Program.paths (Main.environment t home vars) words
  let first ← (inputs .empty .empty).foldlM Main.load .empty
  let names := Program.variableNames (Main.environment first home .empty) words
  let vars ← Main.readVariables names
  let files ← (inputs first vars).foldlM Main.load first
  let report := Program.run (Main.environment files home vars) words
  (inputs report.files vars).forM (Main.store files report.files)
  IO.print report.stdout
  IO.eprint report.stderr
  return report.code.getD 0
