import Routing.Proofs.Matcher.Faults
import Routing.Proofs.Server.Accounting

/-!
# Refused APIs

An API is built before anything of the server changes. If one of its routes is faulty the first
fault is handed back and the server is what it was, with the version of the API that may have been
mounted before. So no later call can tell that the API was registered.

* `registerApi_eq_error_iff`: which APIs a server refuses, and with which error.
* `register_of_error`: a server is left as it was.
* `foldl_call_congr`: calls only see the server and the state of its application.
* `register_refused`: what is refused, why, and what is seen of it later.
-/

namespace Routing

variable {σ : Type}

theorem Api.build_eq_error_iff {a : Api σ} {e : BuildError} :
    a.build = .error e ↔ Matcher.build a.table = .error e := by
  unfold build
  cases Matcher.build a.table <;> simp

namespace Server

variable {a : Api σ} {e : BuildError}

/-- **Which APIs a server refuses**: those that cannot be built, for what fails the build. -/
theorem registerApi_eq_error_iff (s : Server σ) {x : Error} :
    (s.registerApi a).1 = .error x ↔ ∃ e, a.build = .error e ∧ x = .build e := by
  unfold registerApi
  cases a.build with
  | error e => simp [eq_comm]
  | ok c => simp

/-- **A server is left as it was** by an API that cannot be built. -/
theorem register_of_error (s : Server σ) (h : a.build = .error e) : s.register a = s := by
  rw [register, (registerApi_eq_error_iff s).mpr ⟨e, h, rfl⟩]

/-! ## Calls -/

namespace Run

variable {r r' : Run σ}

/-- **One call** only sees the server and the state of its application. -/
theorem call_congr (hserver : r'.server = r.server) (hstate : r'.state = r.state) (c : Call σ) :
    (r'.call c).server = (r.call c).server ∧ (r'.call c).state = (r.call c).state := by
  cases c with
  | change c => exact ⟨congrArg (change · c) hserver, hstate⟩
  | process req =>
    unfold call
    rw [hserver, hstate]
    exact ⟨rfl, rfl⟩
  | takeStats => exact ⟨congrArg (fun s => s.takeStats.2) hserver, hstate⟩

/-- **Calls** only see the server and the state of its application. -/
theorem foldl_call_congr (hserver : r'.server = r.server) (hstate : r'.state = r.state)
    (calls : List (Call σ)) :
    (calls.foldl call r').server = (calls.foldl call r).server ∧
      (calls.foldl call r').state = (calls.foldl call r).state := by
  induction calls generalizing r r' with
  | nil => exact ⟨hserver, hstate⟩
  | cons c cs ih =>
    obtain ⟨hserver', hstate'⟩ := call_congr hserver hstate c
    exact ih hserver' hstate'

end Run

/-- **A faulty list of routes is refused as a whole.** It is built unless a route has nothing but
slashes in its template or a segment that is not a label, and what is reported is the first fault of
the first faulty route. An API with these routes is not built for the same fault, and no server
registers it, whatever is mounted there: the server answers with the fault, and whatever is called
afterwards, all lookups, replies and counts are as if it had not been asked. -/
theorem register_refused (routes : List (Method × String)) :
    ((∃ e, Matcher.build routes = .error e) ↔ ∃ r ∈ routes, Target.trimSlashes r.2 = "" ∨
        ∃ s ∈ Text.splitText '/' (Target.trimSlashes r.2), ∃ e, Label.parse r.2 s = .error e) ∧
      (∀ e, Matcher.build routes = .error e ↔ Matcher.FirstFault Matcher.RouteFault routes e) ∧
      ∀ (a : Api σ) (e : BuildError), a.table = routes →
        (a.build = .error e ↔ Matcher.build routes = .error e) ∧
        (Matcher.build routes = .error e → ∀ r : Run σ,
          (r.server.registerApi a).1 = .error (.build e) ∧
            r.server.register a = r.server ∧
            ∀ calls : List (Call σ),
              let untouched := calls.foldl Run.call r
              let after := calls.foldl Run.call (r.call (.change (.register a)))
              (∀ m target, after.server.store.lookup m target
                  = untouched.server.store.lookup m target) ∧
                (∀ req, after.server.process after.state req
                  = untouched.server.process untouched.state req) ∧
                after.server.takeStats.1 = untouched.server.takeStats.1) := by
  refine ⟨Matcher.exists_build_error_iff, fun e => Matcher.build_eq_error_iff, ?_⟩
  rintro a e rfl
  refine ⟨Api.build_eq_error_iff, fun h r => ?_⟩
  have hbuild : a.build = .error e := Api.build_eq_error_iff.mpr h
  have hkept : (r.call (.change (.register a))).server = r.server :=
    register_of_error r.server hbuild
  refine ⟨(registerApi_eq_error_iff r.server).mpr ⟨e, hbuild, rfl⟩, hkept, fun calls => ?_⟩
  intro untouched after
  obtain ⟨hserver, hstate⟩ :
      after.server = untouched.server ∧ after.state = untouched.state :=
    Run.foldl_call_congr hkept rfl calls
  rw [hserver, hstate]
  exact ⟨fun _ _ => rfl, fun _ => rfl, rfl⟩

/-- A version that is mounted goes on answering after routes for it were refused, of which the first
faulty one is neither the first nor the last. -/
theorem register_refused_mounted :
    let endpoint : Endpoint Unit := fun _ _ x => (.done, x)
    let routes : List (Method × String) :=
      [(.get, "a"), (.put, "/x/<int:n/<text:y>/"), (.get, "//")]
    let api : Api Unit := { routes := routes.map fun r => Route.new r.1 r.2 "" "" endpoint }
    let e : BuildError := .malformedTemplate "/x/<int:n/<text:y>/" "<int:n" .unclosed
    let s : Server Unit := (new "").1.register { routes := [Route.new .get "a/b" "" "" endpoint] }
    let r : Run Unit := ⟨s, (), []⟩
    let after := r.call (.change (.register api))
    let req : Request := { method := .get, target := "/api/v1/a/b" }
    Matcher.build routes = .error e ∧ Matcher.FirstFault Matcher.RouteFault routes e ∧
      (r.server.registerApi api).1 = .error (.build e) ∧
      (after.server.process after.state req).response.status = .ok ∧
      (after.server.process after.state req).server.takeStats.1.requests = 1 := by
  intro endpoint routes api e s r after req
  have hbuild : Matcher.build routes = .error e := rfl
  obtain ⟨-, hfirst, hapi⟩ := register_refused (σ := Unit) routes
  obtain ⟨herror, -, hcalls⟩ := (hapi api e rfl).2 hbuild r
  have hreply : after.server.process after.state req = r.server.process r.state req :=
    (hcalls []).2.1 req
  have hstatus : (r.server.process r.state req).response.status = .ok := by decide +kernel
  have hcount : (r.server.process r.state req).server.takeStats.1.requests = 1 := by
    decide +kernel
  rw [hreply]
  exact ⟨hbuild, (hfirst e).mp hbuild, herror, hstatus, hcount⟩

end Server

end Routing
