import Routing.Text.Quoted

/-!
# Errors

What can go wrong when routes are built, properties are read and requests are handled, and the one
message of each cause.
-/

namespace Routing

/-- Why a segment of a template is malformed. -/
inductive Malformation where
  /-- The segment is empty. -/
  | emptySegment
  /-- The placeholder has no closing bracket. -/
  | unclosed
  /-- The placeholder is not a type and a name with one colon between them. -/
  | notTypeAndName
  /-- There is nothing before the colon. -/
  | missingType
  /-- There is nothing after the colon. -/
  | missingName
  /-- The type is neither `int` nor `string`. -/
  | unknownType
  /-- A reason given in words. -/
  | other (reason : String)
deriving DecidableEq

/-- The reason in words. -/
def Malformation.message : Malformation → String
  | .emptySegment => "empty segment"
  | .unclosed => "placeholder is not closed by '>'"
  | .notTypeAndName => "placeholder must be <type:name>"
  | .missingType => "placeholder type is missing"
  | .missingName => "placeholder name is missing"
  | .unknownType => "unknown placeholder type"
  | .other reason => reason

/-- Why a list of routes cannot be built. -/
inductive BuildError where
  /-- A segment of the template `uri` is malformed. -/
  | malformedTemplate (uri segment : String) (reason : Malformation)
  /-- The template of a route for this method has no segment. -/
  | emptyTemplate (method : String)
deriving DecidableEq

/-- The message of a build error. -/
def BuildError.message : BuildError → String
  | .malformedTemplate uri segment reason =>
    "Malformed template " ++ Text.quoted uri ++ ", segment " ++ Text.quoted segment ++ ": "
      ++ reason.message
  | .emptyTemplate method => "Empty template for " ++ method ++ " route"

/-- Why a property cannot be read: it holds a value of another kind. -/
structure PropertyError where
  /-- The name of the property. -/
  name : String
  /-- The kind asked for. -/
  expected : String
  /-- The kind of the value. -/
  found : String
deriving DecidableEq

/-- The message of a property error. -/
def PropertyError.message (e : PropertyError) : String :=
  "Property " ++ Text.quoted e.name ++ " holds " ++ e.found ++ ", requested as " ++ e.expected

/-- Why a request was not handled or a service not started. -/
inductive Error where
  /-- The service itself failed. -/
  | internal (text : String)
  /-- An argument is bad. -/
  | argument (text : String)
  /-- There is no such entity. -/
  | notFound
  /-- The request cannot be read. -/
  | request (text : String)
  /-- The response cannot be written. -/
  | response (text : String)
  /-- Routes cannot be built. -/
  | build (cause : BuildError)
  /-- A property cannot be read. -/
  | property (cause : PropertyError)
  /-- The connection failed. -/
  | connection (text : String)
deriving DecidableEq

/-- The message of an error. -/
def Error.message : Error → String
  | .internal text => "Internal error: " ++ text
  | .argument text => "Bad arguments: " ++ text
  | .notFound => "Not found."
  | .request text => "Request error: " ++ text
  | .response text => "ResponseError error: " ++ text
  | .build cause => "Build error: " ++ cause.message
  | .property cause => "Property error: " ++ cause.message
  | .connection text => "Hyper error: " ++ text

/-- The error of a body that is not the JSON asked for. -/
def Error.invalidBody : Error :=
  .request "Invalid request body"

end Routing
