import Routing.Exchange
import Routing.Matcher

/-!
# APIs

An API is a version and a list of routes, each with its documentation and its endpoint. Compiled,
it finds the endpoint of a request.
-/

namespace Routing

/-- A route: what it matches, its documentation, and its endpoint. -/
structure Route (σ : Type) where
  /-- The method. -/
  method : Method
  /-- The template. -/
  uri : String
  /-- What the route does. -/
  description : String
  /-- An example of a request body. -/
  input : Json := .null
  /-- An example of a response body. -/
  output : Json := .null
  /-- The status codes that may come back. -/
  statuses : String
  /-- The handler. -/
  endpoint : Endpoint σ

namespace Route

variable {σ : Type}

/-- A route without examples. -/
def new (m : Method) (uri description statuses : String) (endpoint : Endpoint σ) : Route σ :=
  { method := m, uri, description, statuses, endpoint }

/-- The route with examples. -/
def withExamples (r : Route σ) (input output : Payload) : Route σ :=
  { r with input := input.example, output := output.example }

/-- A route for GET with an example of what comes back. -/
def get (output : Payload) (uri description statuses : String) (endpoint : Endpoint σ) : Route σ :=
  (new .get uri description statuses endpoint).withExamples (.value .null) output

/-- A route for POST with examples. -/
def post (input output : Payload) (uri description statuses : String) (endpoint : Endpoint σ) :
    Route σ :=
  (new .post uri description statuses endpoint).withExamples input output

/-- A route for PUT with an example of what is sent. -/
def put (input : Payload) (uri description statuses : String) (endpoint : Endpoint σ) : Route σ :=
  (new .put uri description statuses endpoint).withExamples input (.value .null)

/-- A route for DELETE. -/
def delete (uri description statuses : String) (endpoint : Endpoint σ) : Route σ :=
  new .delete uri description statuses endpoint

/-- The route without its endpoint, for a reader. -/
def describe (r : Route σ) : String :=
  "Route \x7b method: " ++ r.method.name ++ ", uri: " ++ Text.quoted r.uri ++ ", description: "
    ++ Text.quoted r.description ++ ", response_status: " ++ Text.quoted r.statuses
    ++ ", handler: \"<handler>\" \x7d"

end Route

/-- A version of an API. -/
structure Api (σ : Type) where
  /-- The number of the version. -/
  version : Nat := 1
  /-- The routes, in the order of declaration. -/
  routes : List (Route σ) := []

/-- A version of an API with its matcher. -/
structure CompiledApi (σ : Type) where
  /-- The API. -/
  api : Api σ
  /-- The matcher of its routes. -/
  matcher : Matcher

namespace Api

variable {σ : Type}

/-- The API with one more route, at the end. -/
def route (a : Api σ) (r : Route σ) : Api σ :=
  { a with routes := a.routes ++ [r] }

/-- The methods and templates of the routes. -/
def table (a : Api σ) : List (Method × String) :=
  a.routes.map fun r => (r.method, r.uri)

/-- The API with its matcher. -/
def build (a : Api σ) : Except BuildError (CompiledApi σ) :=
  match Matcher.build a.table with
  | .error e => .error e
  | .ok m => .ok ⟨a, m⟩

/-- Tells that an API was built. -/
def builtRecord (a : Api σ) : Log.Record :=
  ⟨.debug, "pathway_api::mapper::api",
    "api v" ++ toString a.version ++ ": compiled " ++ toString a.routes.length ++ " routes"⟩

/-- What building an API tells. -/
def buildLog (a : Api σ) : List Log.Record :=
  Matcher.warnings a.table ++
    match a.build with
    | .error _ => []
    | .ok _ => [a.builtRecord]

end Api

namespace CompiledApi

variable {σ : Type}

/-- The number of the version. -/
def version (a : CompiledApi σ) : Nat :=
  a.api.version

/-- The route for a method and a target below the API, and the properties bound along the path. -/
def lookup (a : CompiledApi σ) (m : Method) (target : String) : Option (Route σ × Properties) :=
  match a.matcher.lookup m target with
  | none => none
  | some (i, p) => a.api.routes[i]?.map fun r => (r, p)

end CompiledApi

end Routing
