import Routing.Error
import Routing.Http.Header
import Routing.Http.Method
import Routing.Http.Status
import Routing.Http.Target
import Routing.Json.Reader

/-!
# Requests
-/

namespace Routing

/-- A request, completely read. -/
structure Request where
  /-- What is asked for. -/
  method : Method
  /-- Of what it is asked, as it was received. -/
  target : String
  /-- The version of the protocol. -/
  version : Version := .http11
  /-- The header fields. -/
  headers : Headers := Headers.empty
  /-- The body. -/
  body : Bytes := []

namespace Request

/-- The path of the target. -/
def path (r : Request) : String :=
  Target.path r.target

/-- The query of the target. -/
def query? (r : Request) : Option String :=
  Target.query? r.target

/-- The body as text, with replacement characters where it is ill-formed. -/
def bodyText (r : Request) : String :=
  Text.Utf8.decodeLenient r.body

/-- The body as JSON. -/
def json (r : Request) : Except Error Json :=
  match Json.read? r.body with
  | some v => .ok v
  | none => .error .invalidBody

/-- The text that the body gives for a field. -/
def record (r : Request) (field : String) : Except Error String :=
  match Json.readRecord? field r.body with
  | some s => .ok s
  | none => .error .invalidBody

end Request

end Routing
