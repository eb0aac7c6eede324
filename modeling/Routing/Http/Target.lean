import Routing.Text.Split

/-!
# Request targets

A target is a path, which ends before the first `?` or `#`, and what follows it: a query after a
`?`, up to a `#`, and a fragment after a `#`.
-/

namespace Routing.Target

/-- Whether a character ends the path of a target. -/
def endsPath (c : Char) : Bool :=
  c = '?' || c = '#'

/-- Whether a character ends a segment of a path. -/
def endsSegment (c : Char) : Bool :=
  c = '/' || endsPath c

/-- Whether a character is a slash. -/
def isSlash (c : Char) : Bool :=
  c = '/'

/-- The characters of the path. -/
def pathChars (s : List Char) : List Char :=
  s.takeWhile fun c => !endsPath c

/-- The characters from the end of the path on. -/
def suffixChars (s : List Char) : List Char :=
  s.dropWhile fun c => !endsPath c

/-- The path of a target. -/
def path (target : String) : String :=
  String.ofList (pathChars target.toList)

/-- The query of a target, without its question mark. -/
def query? (target : String) : Option String :=
  match suffixChars target.toList with
  | '?' :: r => some (String.ofList (r.takeWhile fun c => c ≠ '#'))
  | _ => none

/-- The segments of the path that are not empty. -/
def segments (target : String) : List String :=
  (Text.splitText '/' (path target)).filter fun s => s ≠ ""

/-- A path without the slashes at either end. -/
def trimSlashes (path : String) : String :=
  Text.trimText isSlash path

end Routing.Target
