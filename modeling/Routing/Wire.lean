import Routing.Server

/-!
# Requests and responses on a connection

A client sends a request line, header fields and a body. The server is given the path and query of
the target, and what it answers goes back under a status line with a phrase.

* `serve` answers one request of a connection.
-/

namespace Routing

/-- A request as a client sends it. -/
structure Wire.Request where
  /-- The method. -/
  method : Method
  /-- The target on the request line. -/
  target : String
  /-- The version of the protocol. -/
  version : Version := .http11
  /-- The header fields. -/
  headers : Headers := Headers.empty
  /-- The body, if it can be read. -/
  body : Option Bytes := some []

/-- A response as a client gets it. -/
structure Wire.Response where
  /-- The status. -/
  status : Status
  /-- The phrase on the status line. -/
  phrase : String
  /-- The header fields. -/
  headers : Headers := Headers.empty
  /-- The body. -/
  body : Bytes := []

namespace Wire

/-- The component that serves connections. -/
def origin : String := "pathway_api::rest"

/-! ## Targets -/

/-- A target without its fragment. -/
def dropFragment (s : List Char) : List Char :=
  s.takeWhile fun c => c ≠ '#'

/-- The text after the first colon with two slashes. -/
def afterScheme? : List Char → Option (List Char)
  | ':' :: '/' :: '/' :: r => some r
  | _ :: r => afterScheme? r
  | [] => none

/-- A path and query, a slash if there is nothing. -/
def orSlash (s : List Char) : List Char :=
  if s.isEmpty then ['/'] else s

/-- The path and query of a target. It may come after a scheme and an authority, and there is only a
slash for an authority alone. -/
def pathAndQuery (target : String) : String :=
  match target.toList with
  | '/' :: r => String.ofList (dropFragment ('/' :: r))
  | '*' :: r => String.ofList (dropFragment ('*' :: r))
  | s =>
    match afterScheme? s with
    | some r => String.ofList (orSlash (dropFragment (r.dropWhile fun c => !Target.endsSegment c)))
    | none => "/"

/-! ## Phrases -/

/-- The phrase of a status that has no registered one. -/
def noPhrase : String := "<none>"

/-- The registered phrase of a status. -/
def registered (s : Status) : String :=
  s.phrase?.getD noPhrase

/-- The phrase for a response: its own if there are no controls in it, else the registered one. -/
def phraseOf (r : Routing.Response) : String × List Log.Record :=
  match r.reason with
  | none => (registered r.status, [])
  | some reason =>
    if reason.toList.all isHeaderChar then (reason, [])
    else (registered r.status, [⟨.warn, origin, "dropping reason phrase"⟩])

/-! ## Exchanges -/

/-- Whether the answer to a method has a body under a status. -/
def hasBody (m : Method) (s : Status) : Bool :=
  m ≠ .head && s.code ≠ 204 && s.code ≠ 304 && 200 ≤ s.code

/-- A response to a method, as the client gets it. -/
def send (m : Method) (r : Routing.Response) : Response × List Log.Record :=
  let (phrase, log) := phraseOf r
  ({ status := r.status, phrase, headers := r.headers,
     body := if hasBody m r.status then r.body else [] }, log)

/-- The answer to a request whose body cannot be read. -/
def unreadable : Response :=
  { status := .badRequest, phrase := registered .badRequest }

/-- Answers a request of a connection. One whose body cannot be read does not reach the server. -/
def serve {σ : Type} (s : Server σ) (state : σ) (req : Request) :
    Response × Server σ × σ × List Log.Record :=
  match req.body with
  | none => (unreadable, s, state, [⟨.warn, origin, "failed to read request body"⟩])
  | some body =>
    let target := pathAndQuery req.target
    let reply := s.process state ⟨req.method, target, req.version, req.headers, body⟩
    let (response, log) := send req.method reply.response
    (response, reply.server, reply.state, reply.log ++ log)

end Wire

end Routing
