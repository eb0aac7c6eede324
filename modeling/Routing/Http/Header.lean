import Routing.Dict

/-!
# Header fields

Names are words of letters, digits and marks in lower case, and a message holds one value for each.
A value is any text without controls, the tab apart.
-/

namespace Routing

/-- Whether a character may stand in a header value. -/
def isHeaderChar (c : Char) : Bool :=
  c = '\t' || (0x20 ≤ c.toNat && c.toNat ≠ 0x7F)

/-- The value of a header field. -/
structure HeaderValue where
  /-- The text of the value. -/
  text : String
  /-- There is no control but the tab in it. -/
  legal : text.toList.all isHeaderChar = true
deriving DecidableEq

/-- The value with a text that has no controls. -/
def HeaderValue.ofString? (s : String) : Option HeaderValue :=
  if h : s.toList.all isHeaderChar = true then some ⟨s, h⟩ else none

/-- The marks that may stand in the name of a header field: those of a token, and the quote. -/
def headerMarks : List Char :=
  ['!', '"', '#', '$', '%', '&', '\'', '*', '+', '-', '.', '^', '_', '\x60', '|', '~']

/-- Whether a text is the name of a header field, in any case. -/
def isHeaderName (s : List Char) : Bool :=
  !s.isEmpty && s.all fun c => c.isAlphanum || headerMarks.contains c

/-- The name of a header field. -/
structure HeaderName where
  /-- The name in lower case. -/
  text : String
deriving DecidableEq

namespace HeaderName

/-- The name that a text stands for, whatever its case. -/
def ofString? (s : String) : Option HeaderName :=
  if isHeaderName s.toList then some ⟨String.ofList (s.toList.map Char.toLower)⟩ else none

/-- Names the service that answers. -/
def server : HeaderName := ⟨"server"⟩

/-- Names the media type of the body. -/
def contentType : HeaderName := ⟨"content-type"⟩

end HeaderName

/-- The header fields of a message. -/
abbrev Headers := Dict HeaderValue

namespace Headers

/-- No fields. -/
def empty : Headers := Dict.empty

/-- The fields with one more, in place of one with its name. -/
def insert (h : Headers) (name : HeaderName) (value : HeaderValue) : Headers :=
  Dict.set h name.text value

/-- The value of a field. -/
def value? (h : Headers) (name : HeaderName) : Option HeaderValue :=
  Dict.get? h name.text

end Headers

end Routing
