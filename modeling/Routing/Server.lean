import Routing.Introspection
import Routing.Store

/-!
# The server

A server routes requests to handlers mounted at paths, among them whole APIs, and answers each of
them. A request without a handler is answered by 404. A handler that fails or crashes is answered
for by 500, with an empty body. An API answers for its endpoints itself: it sets 404 where no route
matches and 500 where an endpoint fails, and a request for its root gets its page.

The server counts requests, those without a handler, and those whose handler failed.
-/

namespace Routing

/-- What is mounted at a path. -/
inductive Mount (σ : Type) where
  /-- A handler. -/
  | handler (h : Handler σ)
  /-- An API. -/
  | api (a : CompiledApi σ)

namespace Mount

variable {σ : Type}

/-- The component that serves APIs. -/
def origin : String := "pathway_api::rest_handler"

/-- Whether the tail of a target asks for the root of an API. -/
def isRoot (tail : String) : Bool :=
  (Text.splitWhere Target.endsPath tail.toList).head?.all fun path =>
    Text.trim Target.isSlash path = []

/-- Serves a request below an API. -/
def serveApi (a : CompiledApi σ) (tail : String) (req : Request) (x : Exchange σ) :
    Outcome × Exchange σ :=
  let x := x.tell [⟨.debug, origin, "got request: " ++ req.method.name ++ " " ++ req.target⟩]
  if isRoot tail then
    (.done, x.fill (Text.Utf8.encode (Introspection.page a.api)) Response.htmlType)
  else
    match a.lookup req.method tail with
    | none =>
      (.done, (x.tell [⟨.error, origin, "failed to lookup API v" ++ toString a.version
        ++ " handler for " ++ req.method.name ++ " " ++ tail⟩]).mapResponse
          (·.setStatus .notFound))
    | some (route, properties) =>
      match route.endpoint req properties x with
      | (.failed e, x) =>
        (.done, (x.tell [⟨.error, origin, "unexpected error on " ++ req.method.name ++ " "
          ++ req.target ++ ": " ++ e.message⟩]).mapResponse (·.setStatus .internalError))
      | result => result

/-- Serves a request, given the tail of its target. -/
def serve (m : Mount σ) (tail : String) (req : Request) (x : Exchange σ) :
    Outcome × Exchange σ :=
  match m with
  | .handler h => h tail req x
  | .api a => serveApi a tail req x

end Mount

/-- What a server has counted. -/
structure Stats where
  /-- Requests. -/
  requests : UInt64 := 0
  /-- Requests without a handler. -/
  unknownRequests : UInt64 := 0
  /-- Requests whose handler failed or crashed. -/
  exceptions : UInt64 := 0
deriving DecidableEq

/-- The counts as JSON, in the order of the fields. -/
def Stats.json (s : Stats) : String :=
  Json.compact (.object [("requests", .int s.requests.toNat),
    ("unknown_requests", .int s.unknownRequests.toNat), ("exceptions", .int s.exceptions.toNat)])

/-- A server over an application with states `σ`. -/
structure Server (σ : Type) where
  /-- What is mounted where. -/
  store : Store (Mount σ)
  /-- What was counted since the counts were last taken. -/
  stats : Stats := {}
  /-- The value of the Server header. -/
  signature : HeaderValue

/-- What a request leads to. -/
structure Reply (σ : Type) where
  /-- The server afterwards. -/
  server : Server σ
  /-- The state of the application afterwards. -/
  state : σ
  /-- The response. -/
  response : Response
  /-- The records told. -/
  log : List Log.Record

namespace Server

variable {σ : Type}

/-- The component that dispatches requests. -/
def origin : String := "pathway_api::server"

/-- The name that a service has unless it is given one. -/
def defaultName : String := "pathway"

/-- The Server header of a service without a legal name. -/
def defaultSignature : HeaderValue :=
  ⟨"pathway", by decide⟩

/-- The phrase for the failure of a handler. -/
def failureReason : String := "Exception happened"

/-- A server without handlers below a base path, for a service with a name. A name that is not
legal in a header is not used, with a warning. -/
def new (base : String) (name : String := defaultName) : Server σ × List Log.Record :=
  match HeaderValue.ofString? (name ++ "/0.1.0") with
  | some v => ({ store := Store.withBase base, signature := v }, [])
  | none => ({ store := Store.withBase base, signature := defaultSignature },
      [⟨.warn, origin, "invalid service name " ++ Text.quoted name ++ ", using default"⟩])

/-- Mounts at a path for a verb, in place of what is there. -/
def mount (s : Server σ) (v : Verb) (path : String) (m : Mount σ) : Server σ × List Log.Record :=
  ({ s with store := s.store.add v path m }, [Store.addRecord v path])

/-- Mounts a handler. -/
def route (s : Server σ) (v : Verb) (path : String) (h : Handler σ) :
    Server σ × List Log.Record :=
  s.mount v path (.handler h)

/-- Takes away what is mounted at a path for a verb, and tells whether there was anything. -/
def unroute (s : Server σ) (v : Verb) (path : String) : Bool × Server σ × List Log.Record :=
  match s.store.remove v path with
  | (some _, store) => (true, { s with store }, [Store.removeRecord v path])
  | (none, store) => (false, { s with store }, [])

/-- Builds an API and mounts it at a path for a verb; nothing changes if it cannot be built. -/
def mountApi (s : Server σ) (v : Verb) (path : String) (a : Api σ) :
    Except BuildError (Server σ) × List Log.Record :=
  match a.build with
  | .error e => (.error e, a.buildLog)
  | .ok c =>
    let (s, log) := s.mount v path (.api c)
    (.ok s, a.buildLog ++ log)

/-- The path at which a version of an API is mounted. -/
def apiPath (version : Nat) : String :=
  "api/v" ++ toString version

/-- Builds an API and mounts it at the path of its version for every verb; nothing changes if it
cannot be built. -/
def registerApi (s : Server σ) (a : Api σ) : Except Error (Server σ) × List Log.Record :=
  match a.build with
  | .error e => (.error (.build e), a.buildLog)
  | .ok c =>
    let path := apiPath a.version
    let (s, log) := s.mount .any path (.api c)
    (.ok s, a.buildLog ++
      ⟨.info, Mount.origin, "registering API v" ++ toString a.version ++ " on /" ++ path⟩ :: log)

/-- The counts, and the server with counts of zero. -/
def takeStats (s : Server σ) : Stats × Server σ :=
  (s.stats, { s with stats := {} })

/-- The response before a handler has seen it. -/
def blankResponse (s : Server σ) (req : Request) : Response :=
  ({ version := req.version : Response }).setHeader .server s.signature

/-- Answers for a handler that failed or crashed. -/
def fail (r : Response) : Response :=
  ((r.setStatus .internalError).setReason failureReason).setBody []

/-- Answers a request. -/
def process (s : Server σ) (state : σ) (req : Request) : Reply σ :=
  let counted := { s.stats with requests := s.stats.requests + 1 }
  let blank := s.blankResponse req
  let subject := req.method.name ++ " " ++ req.target
  match s.store.lookup req.method req.target with
  | none =>
    { server := { s with stats := { counted with unknownRequests := counted.unknownRequests + 1 } }
      state
      response := blank.setStatus .notFound
      log := [⟨.debug, origin, "no handler for " ++ subject⟩] }
  | some (tail, m) =>
    let failed (x : Exchange σ) (text : String) : Reply σ :=
      { server := { s with stats := { counted with exceptions := counted.exceptions + 1 } }
        state := x.state
        response := fail x.response
        log := x.log ++ [⟨.error, origin, text⟩] }
    match m.serve tail req ⟨state, blank, []⟩ with
    | (.done, x) =>
      { server := { s with stats := counted }, state := x.state, response := x.response,
        log := x.log }
    | (.failed e, x) => failed x (subject ++ " failed: " ++ e.message)
    | (.crashed, x) => failed x (subject ++ " panicked")

end Server

end Routing
