import Mathlib.Data.Finset.Dedup
import Routing.Demo
import Routing.Proofs.Store.Addressing

/-!
# The demo service as a machine

What the service does, without a server: a set of names and a flag, changed by what the requests ask
for, one after the other. What a request asks for is read off its method, its body and the segments
that follow the path of the API in its target.

* `Ask.ofRequest`: what a request asks for.
* `Machine.step`: the answer to it, and the machine afterwards.
* `Machine.run`: the answers to requests, and the machine afterwards.
-/

namespace Routing.Demo

/-- What a request asks for. -/
inductive Ask where
  /-- The page of the API. -/
  | page
  /-- That the resource be added that the body names, if it names one. -/
  | add (name : Option String)
  /-- That a resource be removed. -/
  | remove (id : String)
  /-- To be shown a resource. -/
  | read (id : String)
  /-- A greeting. -/
  | hello
  /-- That the service end. -/
  | shutdown
  /-- Nothing that the service knows. -/
  | unknown
deriving DecidableEq

namespace Ask

/-- What a request asks for below the API, where its target has the segments. -/
def ofSegments (req : Request) : List String → Ask
  | [] => .page
  | ["resource"] => if req.method = .post then .add (req.record "name").toOption else .unknown
  | ["resource", id] =>
    if req.method = .delete then .remove id
    else if req.method = .get then .read id
    else .unknown
  | ["hello"] => if req.method = .get then .hello else .unknown
  | _ => .unknown

/-- What a request asks for, of a service below a base path. -/
def ofRequest (base : String) (req : Request) : Ask :=
  match Store.tail? base "api/v1" req.target with
  | some tail => ofSegments req (Target.segments tail)
  | none =>
    if req.method = .post ∧ (Store.tail? base "shutdown" req.target).isSome = true then .shutdown
    else .unknown

end Ask

/-- An answer of the service. -/
inductive Answer where
  /-- A status without content. -/
  | bare (s : Status)
  /-- An echo, with status 200. -/
  | echo (text : String)
  /-- The page of the API, with status 200. -/
  | page

/-- The status of an answer. -/
def Answer.status : Answer → Status
  | .bare s => s
  | .echo _ => .ok
  | .page => .ok

/-- The media type and the content of an answer, if it has any. -/
def Answer.content? : Answer → Option (HeaderValue × Bytes)
  | .bare _ => none
  | .echo text => some (⟨Response.jsonType, by decide⟩,
      Text.Utf8.encode (Json.compact (.object [("echo", .text text)])))
  | .page => some (⟨Response.htmlType, by decide⟩, Text.Utf8.encode (Introspection.page api))

/-- The response that carries an answer: the status, and the content under its media type. -/
def Answer.response (a : Answer) (blank : Response) : Response :=
  match a.content? with
  | none => blank.setStatus a.status
  | some (type, body) => ((blank.setStatus a.status).setHeader .contentType type).setBody body

/-- The names of the resources, and whether the service is to go on. -/
structure Machine where
  /-- The names of the resources. -/
  names : Finset String := ∅
  /-- Whether the service is to go on. -/
  running : Bool := true
deriving DecidableEq

namespace Machine

/-- The answer to what is asked for, and the machine afterwards. -/
def step (c : Machine) : Ask → Answer × Machine
  | .page => (.page, c)
  | .add none => (.bare .badRequest, c)
  | .add (some name) =>
    if name ∈ c.names then (.bare .conflict, c)
    else (.echo ("hello " ++ name), { c with names := insert name c.names })
  | .remove id =>
    if id ∈ c.names then (.bare .noContent, { c with names := c.names.erase id })
    else (.bare .notFound, c)
  | .read id =>
    if id ∈ c.names then (.echo ("It's " ++ id), c) else (.bare .notFound, c)
  | .hello => (.echo "world", c)
  | .shutdown => (.bare .noContent, { c with running := false })
  | .unknown => (.bare .notFound, c)

/-- The answers to what is asked for, one after the other, and the machine afterwards. -/
def run (c : Machine) : List Ask → List Answer × Machine
  | [] => ([], c)
  | a :: as =>
    let (answer, c) := c.step a
    let (answers, c) := run c as
    (answer :: answers, c)

/-- The statuses that the service answers with. -/
def statuses : List Status :=
  [.ok, .noContent, .badRequest, .notFound, .conflict]

/-- **Every answer has one of these statuses.** -/
theorem status_step_mem (c : Machine) (a : Ask) : (c.step a).1.status ∈ statuses := by
  rcases a with _ | (_ | name) | id | id | _ | _ | _
  all_goals
    simp only [step]
    try split
    all_goals simp [Answer.status, statuses]

end Machine

end Routing.Demo
