import Routing.Exchange
import Routing.Text.Hex

/-!
# Scripted handlers

A handler may be given as data: a list of actions, run one after the other until one of them fails.
-/

namespace Routing

/-- An action of a scripted handler. -/
inductive Action where
  /-- Sets the status. -/
  | status (s : Status)
  /-- Sets the phrase for the status. -/
  | reason (text : String)
  /-- Sets the version. -/
  | version (v : Version)
  /-- Sets a header field. -/
  | header (name : HeaderName) (value : HeaderValue)
  /-- Sets the body. -/
  | body (bs : Bytes)
  /-- Answers with a body of a media type. -/
  | ok (bs : Bytes) (contentType : String)
  /-- Answers with a tag, a colon and the tail. -/
  | okTail (tag : String)
  /-- Sets the body to the tail. -/
  | tail
  /-- Answers with compact JSON. -/
  | json (p : Payload)
  /-- Answers with JSON over several lines. -/
  | jsonPretty (p : Payload)
  /-- Answers with what the request asks for, as JSON. -/
  | echo
  /-- Answers with the bound properties, as JSON. -/
  | properties
  /-- Answers with a property of a kind, as JSON. -/
  | value (name : String) (kind : Kind)
  /-- Answers with a property of the kind of the default, or the default, as JSON. -/
  | valueOr (name : String) (default : Value)
  /-- Answers with the name that the body gives. -/
  | named
  /-- Fails. -/
  | fail (e : Error)
  /-- Crashes. -/
  | crash
  /-- An action that is not known. -/
  | unknown (name : String)

namespace Value

/-- The lower case hexadecimal digits of bytes. -/
def hexText (bs : Bytes) : String :=
  String.ofList (bs.flatMap fun b => [Text.Hex.digit (b.toNat / 16), Text.Hex.digit (b.toNat % 16)])

/-- A value under the name of its kind, as JSON. -/
def toJson : Value → Json
  | .int n => .object [("int", .text (toString n))]
  | .string s => .object [("string", .text s)]
  | .bytes bs => .object [("bytes", .text (hexText bs))]
  | .bool b => .object [("bool", .bool b)]
  | .float x => .object [("float", .text (String.ofList (Text.Hex.padded 16 x.bits.toNat)))]

end Value

/-- Properties by name, as JSON. -/
def Properties.toJson (p : Properties) : Json :=
  .object (p.entries.map fun e => (e.1, e.2.toJson))

/-- What a request asks for, as JSON. -/
def Request.toJson (r : Request) : Json :=
  .object [("body", .text r.bodyText), ("method", .text r.method.name), ("path", .text r.path),
    ("query", match r.query? with
      | some q => .text q
      | none => .null),
    ("target", .text r.target)]

namespace Action

variable {σ : Type}

/-- Runs an action. -/
def run (tail : String) (req : Request) (p : Properties) (x : Exchange σ) :
    Action → Outcome × Exchange σ
  | .status s => (.done, x.mapResponse (·.setStatus s))
  | .reason t => (.done, x.mapResponse (·.setReason t))
  | .version v => (.done, x.mapResponse fun r => { r with version := v })
  | .header name v => (.done, x.mapResponse (·.setHeader name v))
  | .body bs => (.done, x.mapResponse (·.setBody bs))
  | .ok bs contentType => (.done, x.fill bs contentType)
  | .okTail tag => (.done, x.fill (Text.Utf8.encode (tag ++ ":" ++ tail)) "text/plain")
  | .tail => (.done, x.mapResponse (·.setBody (Text.Utf8.encode tail)))
  | .json v => x.attempt (·.fillJson v)
  | .jsonPretty v => x.attempt (·.fillJsonPretty v)
  | .echo => x.attempt (·.fillJson (.value req.toJson))
  | .properties => x.attempt (·.fillJson (.value p.toJson))
  | .value name kind =>
    match p.value kind name with
    | .ok none => x.attempt (·.fillJson (.value .null))
    | .ok (some v) => x.attempt (·.fillJson (.value v.toJson))
    | .error e => (.failed (.property e), x)
  | .valueOr name default =>
    match p.valueOr name default with
    | .ok v => x.attempt (·.fillJson (.value v.toJson))
    | .error e => (.failed (.property e), x)
  | .named =>
    match req.record "name" with
    | .ok name => (.done, x.fill (Text.Utf8.encode name) Response.htmlType)
    | .error e => (.failed e, x)
  | .fail e => (.failed e, x)
  | .crash => (.crashed, x)
  | .unknown name => (.failed (.internal ("unknown action " ++ name)), x)

/-- Runs actions up to the first that does not end well. -/
def runAll (tail : String) (req : Request) (p : Properties) :
    List Action → Exchange σ → Outcome × Exchange σ
  | [], x => (.done, x)
  | a :: r, x =>
    match a.run tail req p x with
    | (.done, x) => runAll tail req p r x
    | result => result

/-- The handler that runs actions. -/
def handler (actions : List Action) : Handler σ :=
  fun tail req x => runAll tail req Properties.empty actions x

/-- The endpoint that runs actions. -/
def endpoint (actions : List Action) : Endpoint σ :=
  fun req p x => runAll "" req p actions x

end Action

end Routing
