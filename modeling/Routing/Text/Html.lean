/-!
# Text in HTML

The five characters with a meaning in HTML text and attributes are written as entities.
-/

namespace Routing.Text.Html

/-- The written form of one character. -/
def escapeChar : Char → List Char
  | '&' => ['&', 'a', 'm', 'p', ';']
  | '"' => ['&', 'q', 'u', 'o', 't', ';']
  | '\'' => ['&', 'a', 'p', 'o', 's', ';']
  | '<' => ['&', 'l', 't', ';']
  | '>' => ['&', 'g', 't', ';']
  | c => [c]

/-- The written form of a text. -/
def escapeChars (s : List Char) : List Char :=
  s.flatMap escapeChar

/-- The written form of a text. -/
def escape (s : String) : String :=
  String.ofList (escapeChars s.toList)

theorem escapeChars_append (s t : List Char) :
    escapeChars (s ++ t) = escapeChars s ++ escapeChars t :=
  List.flatMap_append

end Routing.Text.Html
