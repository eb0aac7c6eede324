import Routing.Http.Request
import Routing.Http.Response
import Routing.Properties

/-!
# Exchanges

A handler works on an exchange: the state of the application, which handlers share, the response in
the making, and the records told so far. It ends well, with an error, or by a crash, and what it
has done to the exchange until then stays done.
-/

namespace Routing

/-- What a handler works on. -/
structure Exchange (σ : Type) where
  /-- The state of the application. -/
  state : σ
  /-- The response in the making. -/
  response : Response
  /-- The records told so far, oldest first. -/
  log : List Log.Record

/-- How a handler ends. -/
inductive Outcome where
  /-- It did its work. -/
  | done
  /-- It gave up with an error. -/
  | failed (e : Error)
  /-- It crashed. -/
  | crashed
deriving DecidableEq

/-- A handler of the tails of targets. -/
abbrev Handler (σ : Type) := String → Request → Exchange σ → Outcome × Exchange σ

/-- A handler of the requests that match a route. -/
abbrev Endpoint (σ : Type) := Request → Properties → Exchange σ → Outcome × Exchange σ

namespace Exchange

variable {σ : Type}

/-- The exchange with its response changed. -/
def mapResponse (x : Exchange σ) (f : Response → Response) : Exchange σ :=
  { x with response := f x.response }

/-- The exchange with more records. -/
def tell (x : Exchange σ) (records : List Log.Record) : Exchange σ :=
  { x with log := x.log ++ records }

/-- The exchange with a response and the records told while it was made. -/
def answer (x : Exchange σ) (r : Response × List Log.Record) : Exchange σ :=
  { x with response := r.1, log := x.log ++ r.2 }

/-- Answers with a body of a media type. -/
def fill (x : Exchange σ) (body : Bytes) (contentType : String) : Exchange σ :=
  x.answer (x.response.fill body contentType)

/-- Answers with what `f` makes of the response, or fails with its error. -/
def attempt (x : Exchange σ) (f : Response → Except Error (Response × List Log.Record)) :
    Outcome × Exchange σ :=
  match f x.response with
  | .ok r => (.done, x.answer r)
  | .error e => (.failed e, x)

end Exchange

end Routing
