import Routing.Error
import Routing.Text.Split

/-!
# Templates

The template of a route is a path whose segments are literals or placeholders: `<int:name>` binds
an integer and `<string:name>` any segment. A label is what a segment of a template asks of a
segment of a request.

* `Label.render` gives back the segment that a label was read from.
-/

namespace Routing

/-- What a segment of a template asks for. -/
inductive Label.Kind where
  /-- One text. -/
  | literal
  /-- An integer. -/
  | int
  /-- Any segment. -/
  | string
deriving DecidableEq

/-- The order in which kinds are tried. -/
def Label.Kind.rank : Label.Kind → Nat
  | .literal => 0
  | .int => 1
  | .string => 2

/-- A segment of a template. -/
structure Label where
  /-- What it asks for. -/
  kind : Label.Kind
  /-- The text of a literal, or the name that a placeholder binds. -/
  id : String
deriving DecidableEq

namespace Label

/-- The segment of a template that stands for a label. -/
def render (l : Label) : String :=
  match l.kind with
  | .literal => l.id
  | .int => "<int:" ++ l.id ++ ">"
  | .string => "<string:" ++ l.id ++ ">"

/-- The placeholder with the text between the brackets. -/
def ofInner (inner : List Char) : Except Malformation Label :=
  match Text.split ':' inner with
  | [kind, name] =>
    if kind = [] then .error .missingType
    else if name = [] then .error .missingName
    else if kind = ['s', 't', 'r', 'i', 'n', 'g'] then .ok ⟨.string, String.ofList name⟩
    else if kind = ['i', 'n', 't'] then .ok ⟨.int, String.ofList name⟩
    else .error .unknownType
  | _ => .error .notTypeAndName

/-- The label that a segment stands for: a placeholder if it starts with `<`. -/
def ofChars (segment : List Char) : Except Malformation Label :=
  match segment with
  | [] => .error .emptySegment
  | '<' :: r =>
    match Text.beforeLast? '>' r with
    | none => .error .unclosed
    | some inner => ofInner inner
  | _ => .ok ⟨.literal, String.ofList segment⟩

/-- The label of a segment of the template `uri`. -/
def parse (uri segment : String) : Except BuildError Label :=
  match ofChars segment.toList with
  | .ok l => .ok l
  | .error m => .error (.malformedTemplate uri segment m)

end Label

end Routing
