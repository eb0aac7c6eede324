import Routing.Properties
import Routing.Template
import Routing.Text.Numeral

/-!
# Segments of requests

A segment of a request path has an integer reading if it starts with a digit and reads as a 64 bit
integer. A label accepts a segment, and a placeholder binds it.
-/

namespace Routing

/-- A segment of a request path. -/
structure Segment where
  /-- The segment as it stands in the path. -/
  text : String
deriving DecidableEq

namespace Segment

/-- The integer that a segment reads as. -/
def number? (s : Segment) : Option Int :=
  match s.text.toList with
  | [] => none
  | c :: r => if (Text.Numeral.digit? c).isSome then Text.Numeral.int64? (c :: r) else none

end Segment

namespace Label

/-- Whether a label accepts a segment: a literal its own text, an integer placeholder what has an
integer reading, a text placeholder everything. -/
def accepts (l : Label) (s : Segment) : Bool :=
  match l.kind with
  | .literal => l.id = s.text
  | .string => true
  | .int => s.number?.isSome

/-- The properties with what a label binds for a segment. -/
def bind (l : Label) (s : Segment) (p : Properties) : Properties :=
  match l.kind, s.number? with
  | .string, _ => p.insert l.id (.string s.text)
  | .int, some n => p.insert l.id (.int n)
  | _, _ => p

end Label

end Routing
