import Routing.Server

/-!
# The demo service

A set of named resources behind version 1 of an API, and a request that ends the service.
-/

namespace Routing.Demo

/-- The state of the service. -/
structure State where
  /-- The names of the resources. -/
  names : List String := []
  /-- Whether the service is to go on. -/
  running : Bool := true

/-- The component that serves the demo. -/
def origin : String := "pathway::cmd::service"

/-- An answer of the service, as JSON. -/
def echo (text : String) : Payload :=
  .value (.object [("echo", .text text)])

/-- Adds the resource that the body names. -/
def addResource : Endpoint State := fun req _ x =>
  match req.record "name" with
  | .error e =>
    let x := x.tell [⟨.debug, origin, "rejected resource: " ++ e.message⟩]
    (.done, x.mapResponse (·.setStatus .badRequest))
  | .ok name =>
    if x.state.names.contains name then (.done, x.mapResponse (·.setStatus .conflict))
    else
      ({ x with state := { x.state with names := name :: x.state.names } }).attempt
        (·.fillJson (echo ("hello " ++ name)))

/-- The name of the resource that is asked for. -/
def resourceId (p : Properties) : Except Error String :=
  match p.value .string "id" with
  | .ok (some (.string s)) => .ok s
  | .ok _ => .error (.argument "resource id missing")
  | .error e => .error (.property e)

/-- Removes a resource. -/
def deleteResource : Endpoint State := fun _ p x =>
  match resourceId p with
  | .error e => (.failed e, x)
  | .ok id =>
    if x.state.names.contains id then
      let state := { x.state with names := x.state.names.filter fun n => n ≠ id }
      (.done, ({ x with state }).fill [] "")
    else (.done, x.mapResponse (·.setStatus .notFound))

/-- Shows a resource. -/
def getResource : Endpoint State := fun _ p x =>
  match resourceId p with
  | .error e => (.failed e, x)
  | .ok id =>
    if x.state.names.contains id then x.attempt (·.fillJson (echo ("It's " ++ id)))
    else (.done, x.mapResponse (·.setStatus .notFound))

/-- Says hello. -/
def hello : Endpoint State := fun _ _ x =>
  x.attempt (·.fillJson (echo "world"))

/-- Ends the service. -/
def shutdown : Handler State := fun _ _ x =>
  let x := x.tell [⟨.warn, origin, "shutdown requested"⟩]
  (.done, ({ x with state := { x.state with running := false } }).fill [] "")

/-- An example of a resource. -/
def resourceExample : Payload :=
  .value (.object [("name", .text "world")])

/-- An example of an answer. -/
def echoExample : Payload :=
  echo "hello world"

/-- The API of the resources. -/
def api : Api State :=
  { version := 1
    routes := [
      Route.post resourceExample echoExample "resource" "Add new resource"
        "200 - added<br>409 - resource exists" addResource,
      Route.delete "resource/<string:id>" "Delete resource"
        "204 - deleted<br>404 - resource not found" deleteResource,
      Route.get echoExample "resource/<string:id>" "Resource info"
        "200 - ok<br>404 - resource not found" getResource,
      Route.get echoExample "hello" "Say Hello" "200 - Hello back" hello] }

/-- Mounts the service. -/
def register (s : Server State) : Except Error (Server State) × List Log.Record :=
  let (s, log) := s.route (Method.post : Verb) "shutdown" shutdown
  let (result, more) := s.registerApi api
  (result, log ++ more)

end Routing.Demo
