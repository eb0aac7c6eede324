import Routing.Config.Basic
import Routing.FileTree

/-!
# The journal

Where log records go: to the standard output, to a file, to both or nowhere, each with a level of
its own. It starts with a record of the levels.
-/

namespace Routing.Journal

open Config (LogSettings)

/-- Whether a record is as urgent as a level, or more. -/
def passes (least : Log.Level) (r : Log.Record) : Bool :=
  r.level.rank ≤ least.rank

/-- The lines of the records that are as urgent as a level. -/
def lines (least : Log.Level) (records : List Log.Record) : String :=
  String.join ((records.filter (passes least)).map fun r => r.line ++ "\n")

/-- The less urgent of two levels. -/
def wider (a b : Log.Level) : Log.Level :=
  if a.rank ≤ b.rank then b else a

/-- The least urgent level that goes anywhere. -/
def widest (l : LogSettings) : Option Log.Level :=
  match l.toStdout, l.toFile with
  | true, true => some (wider l.stdoutLevel l.fileLevel)
  | true, false => some l.stdoutLevel
  | false, true => some l.fileLevel
  | false, false => none

/-- Tells the levels. -/
def openingRecord (l : LogSettings) : Log.Record :=
  ⟨.info, "pathway_util::logger",
    "log4rs is initialized, file level: " ++ l.fileLevel.name ++ ", stdout level: "
      ++ l.stdoutLevel.name ++ ", min. level: "
      ++ match widest l with
        | some level => level.name
        | none => "Off"⟩

/-- What records look like on the standard output. -/
def onStdout (l : LogSettings) (records : List Log.Record) : String :=
  if l.toStdout then lines l.stdoutLevel records else ""

/-- What is in the file before the first record. -/
def kept (l : LogSettings) (t : FileTree) : Bytes :=
  if l.append then
    match t.read l.filePath with
    | .ok content => content
    | .error _ => []
  else []

/-- The tree with records in the file. -/
def inFile (l : LogSettings) (t : FileTree) (records : List Log.Record) : Except Fault FileTree :=
  if l.toFile then
    match t.makeDirectories (FileTree.directoryOf l.filePath) with
    | .error f => .error f
    | .ok made =>
      made.write l.filePath (kept l t ++ Text.Utf8.encode (lines l.fileLevel records))
  else .ok t

end Routing.Journal
