import Routing.Error
import Routing.Http.Header
import Routing.Http.Status
import Routing.Json.Printer
import Routing.Log
import Routing.Text.Utf8

/-!
# Responses

A response is filled in step by step. `Response.fill` answers with a body of a media type, and
`Response.fillJson` with a JSON value.
-/

namespace Routing

/-- A response in the making. -/
structure Response where
  /-- The status. -/
  status : Status := .ok
  /-- The phrase for the status, where it is not the registered one. -/
  reason : Option String := none
  /-- The version of the protocol. -/
  version : Version := .http11
  /-- The header fields. -/
  headers : Headers := Headers.empty
  /-- The body. -/
  body : Bytes := []

/-- Something to be written as JSON: a value, or what fails to be written. -/
inductive Payload where
  /-- A value. -/
  | value (v : Json)
  /-- Fails with a reason. -/
  | failing (reason : String)

/-- The value of a payload for documentation, null if it cannot be written. -/
def Payload.example : Payload → Json
  | .value v => v
  | .failing _ => .null

namespace Response

/-- The media type of JSON. -/
def jsonType : String := "application/json; charset=utf-8"

/-- The media type of HTML. -/
def htmlType : String := "text/html; charset=utf-8"

/-- The response with a status. -/
def setStatus (r : Response) (s : Status) : Response :=
  { r with status := s }

/-- The response with a phrase of its own. -/
def setReason (r : Response) (reason : String) : Response :=
  { r with reason := some reason }

/-- The response with a header field. -/
def setHeader (r : Response) (name : HeaderName) (value : HeaderValue) : Response :=
  { r with headers := r.headers.insert name value }

/-- The response with a body. -/
def setBody (r : Response) (body : Bytes) : Response :=
  { r with body := body }

/-- Tells that a media type is not a legal header value. -/
def invalidTypeRecord (contentType : String) : Log.Record :=
  ⟨.warn, "pathway_api::web", "invalid content type " ++ Text.quoted contentType ++ ", not set"⟩

/-- Answers with a body: no content if it is empty, and else the body under its media type. A media
type that is not a legal header value is left out, with a warning. -/
def fill (r : Response) (body : Bytes) (contentType : String) : Response × List Log.Record :=
  if body.isEmpty then ({ r with status := .noContent, body := [] }, [])
  else
    let r := r.setStatus .ok
    match HeaderValue.ofString? contentType with
    | some v => ((r.setHeader .contentType v).setBody body, [])
    | none => (r.setBody body, [invalidTypeRecord contentType])

/-- Answers with the text of a payload, laid out by `layout`. -/
def fillPayload (layout : Json → String) (r : Response) (p : Payload) :
    Except Error (Response × List Log.Record) :=
  match p with
  | .value v => .ok (r.fill (Text.Utf8.encode (layout v)) jsonType)
  | .failing reason => .error (.response ("can't create json response: " ++ reason))

/-- Answers with a payload as compact JSON. -/
def fillJson : Response → Payload → Except Error (Response × List Log.Record) :=
  fillPayload Json.compact

/-- Answers with a payload as JSON over several lines. -/
def fillJsonPretty : Response → Payload → Except Error (Response × List Log.Record) :=
  fillPayload Json.pretty

end Response

end Routing
