import Routing.Proofs.Server.Versions
import Routing.Script

/-!
# What is left of a handler that fails

A handler that gives up with an error may have written to the response before. For a mounted
handler the server answers: it sets the status and throws away what was written to the body. For an
endpoint the API answers: it sets the status, and the body stays as the endpoint has left it. In
both cases the status is 500; the body is empty unless an endpoint has written one.

* `process_of_fails`: the status and the body after a failure.
* `endpoint_leaves_body`: the body that a failing endpoint has written goes out.
-/

namespace Routing.Server

variable {σ : Type}

/-- What a request may be handed to. -/
inductive Callee where
  /-- A mounted handler. -/
  | handler
  /-- An endpoint of a mounted API. -/
  | endpoint
deriving DecidableEq

/-- A request is handed to a mounted handler, or to an endpoint of a mounted API, which gives up
with an error and leaves the exchange `x` behind. -/
inductive Fails (s : Server σ) (state : σ) (req : Request) : Callee → Exchange σ → Prop
  | handler {tail : String} {h : Handler σ} {e : Error} {x : Exchange σ} :
    s.store.lookup req.method req.target = some (tail, .handler h) →
    h tail req ⟨state, s.blankResponse req, []⟩ = (.failed e, x) →
    Fails s state req .handler x
  | endpoint {tail : String} {a : CompiledApi σ} {route : Route σ} {p : Properties} {e : Error}
    {x : Exchange σ} :
    s.store.lookup req.method req.target = some (tail, .api a) →
    ¬ OnlySlashes tail → a.lookup req.method tail = some (route, p) →
    route.endpoint req p (s.received state req) = (.failed e, x) →
    Fails s state req .endpoint x

variable {s : Server σ} {state : σ} {req : Request} {x : Exchange σ}

/-- The server answers for a mounted handler. -/
theorem process_of_handler_fails (h : s.Fails state req .handler x) :
    (s.process state req).outcome = (s.countException, x.state, fail x.response) := by
  cases h with
  | handler hl hfail => rw [process_of_lookup_eq_some hl, Mount.serve, hfail]; rfl

/-- An API answers for its endpoint. -/
theorem process_of_endpoint_fails (h : s.Fails state req .endpoint x) :
    (s.process state req).outcome
      = (s.count, x.state, x.response.setStatus .internalError) := by
  cases h with
  | endpoint hl hroot hroute hfail =>
    rw [process_of_lookup_eq_api hl (.endpoint hroot hroute), respond, hfail]

/-- **A failure is answered with status 500**, and the body is empty unless an endpoint has written
one: then what it has written goes out. -/
theorem process_of_fails {callee : Callee} (h : s.Fails state req callee x) :
    (s.process state req).response.status = .internalError ∧
      ((s.process state req).response.body = [] ↔ callee = .handler ∨ x.response.body = []) ∧
      (callee = .endpoint → (s.process state req).response.body = x.response.body) := by
  have hresponse : (s.process state req).response = (s.process state req).outcome.2.2 := rfl
  rw [hresponse]
  cases callee with
  | handler =>
    rw [process_of_handler_fails h]
    exact ⟨rfl, ⟨fun _ => Or.inl rfl, fun _ => rfl⟩, fun hc => nomatch hc⟩
  | endpoint =>
    rw [process_of_endpoint_fails h]
    exact ⟨rfl, ⟨fun hb => Or.inr hb, fun hb => hb.elim (fun hc => nomatch hc) id⟩, fun _ => rfl⟩

/-- Actions that write a body and then fail. -/
def writesAndFails : List Action :=
  [.body (Text.Utf8.encode "partial"), .fail (.internal "boom")]

/-- A server with a handler and an endpoint that write a body and then fail. -/
def failing : Server Unit :=
  ((new "").1.route .any "err" (Action.handler writesAndFails)).1.register
    { routes := [Route.new .get "x" "" "" (Action.endpoint writesAndFails)] }

/-- What a failing handler has written is thrown away. -/
theorem process_of_fails_handler :
    let req : Request := { method := .get, target := "/err" }
    ∃ x, failing.Fails () req .handler x ∧ x.response.body = Text.Utf8.encode "partial" ∧
      (failing.process () req).response.status = .internalError ∧
      (failing.process () req).response.body = [] := by
  intro req
  have hl : failing.store.lookup .get "/err"
      = some ("", .handler (Action.handler writesAndFails)) := rfl
  have hfails : failing.Fails () req .handler _ := .handler hl rfl
  obtain ⟨hstatus, hbody, -⟩ := process_of_fails hfails
  exact ⟨_, hfails, rfl, hstatus, hbody.mpr (Or.inl rfl)⟩

/-- What a failing endpoint has written goes out. -/
theorem endpoint_leaves_body :
    let req : Request := { method := .get, target := "/api/v1/x" }
    ∃ x, failing.Fails () req .endpoint x ∧
      (failing.process () req).response.body = Text.Utf8.encode "partial" ∧
      ¬ ((failing.process () req).response.status = .internalError ∧
        (failing.process () req).response.body = []) := by
  intro req
  obtain ⟨a, hl, ha⟩ : ∃ a, failing.store.lookup .get "/api/v1/x" = some ("/x", .api a) ∧
      (a.lookup .get "/x").map Prod.fst
        = some (Route.new .get "x" "" "" (Action.endpoint writesAndFails)) := ⟨_, rfl, rfl⟩
  obtain ⟨⟨route, p⟩, hroute, rfl⟩ := Option.map_eq_some_iff.mp ha
  have hroot : ¬ OnlySlashes "/x" := mt isRoot_iff.mpr (by decide)
  have hfails : failing.Fails () req .endpoint _ := .endpoint hl hroot hroute rfl
  have hbody : (failing.process () req).response.body = Text.Utf8.encode "partial" :=
    congrArg (fun o => o.2.2.body) (process_of_endpoint_fails hfails)
  refine ⟨_, hfails, hbody, fun h => ?_⟩
  rw [hbody] at h
  exact absurd h.2 (by decide)

end Routing.Server
