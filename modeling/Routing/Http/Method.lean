/-!
# Methods and verbs

A request has a method, whose name is any word of letters, digits and marks: the usual names are
only the most common ones, and case counts. Not all marks of a token may stand in it. A handler is
registered under a verb: one method, or all of them.
-/

namespace Routing

/-- The marks that may stand in the name of a method. -/
def methodMarks : List Char :=
  ['!', '*', '+', '-', '.', '^', '_', '\x60', '|', '~']

/-- Whether a character may stand in the name of a method. -/
def isMethodChar (c : Char) : Bool :=
  c.isAlphanum || methodMarks.contains c

/-- Whether a text is the name of a method. -/
def isMethodName (s : List Char) : Bool :=
  !s.isEmpty && s.all isMethodChar

/-- The method of a request. -/
structure Method where
  /-- The name, as it stands in the request. -/
  name : String
  /-- The name is that of a method. -/
  legal : isMethodName name.toList = true
deriving DecidableEq

namespace Method

/-- The method with a legal name. -/
def ofString? (s : String) : Option Method :=
  if h : isMethodName s.toList = true then some ⟨s, h⟩ else none

/-- Asks for a resource. -/
def get : Method := ⟨"GET", by decide⟩

/-- Asks for what comes with a resource, without its content. -/
def head : Method := ⟨"HEAD", by decide⟩

/-- Hands content to a resource. -/
def post : Method := ⟨"POST", by decide⟩

/-- Puts content in place of a resource. -/
def put : Method := ⟨"PUT", by decide⟩

/-- Removes a resource. -/
def delete : Method := ⟨"DELETE", by decide⟩

/-- Asks for a tunnel. -/
def connect : Method := ⟨"CONNECT", by decide⟩

end Method

/-- What a handler is registered under. -/
inductive Verb where
  /-- Every method without a registration of its own. -/
  | any
  /-- One method. -/
  | exact (m : Method)
deriving DecidableEq

/-- The text of a verb, a star for all methods. -/
def Verb.text : Verb → String
  | .any => "*"
  | .exact m => m.name

instance : Coe Method Verb := ⟨Verb.exact⟩

end Routing
