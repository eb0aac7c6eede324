import Routing.Proofs.Demo.Routes

/-!
# The demo service simulates the machine

The state of the service stands for a machine: the list of names for the set of its members. An
endpoint that is handed what a request asks for does what the machine does: it ends well, the state
afterwards stands for the machine after the step, and the response carries its answer. With what a
target finds this holds of every request to the server, and by induction of every run.

* `Does`: an endpoint does what is asked for.
* `process_simulates`: one request is one step.
* `processAll_simulates`: a run of requests is a run of the machine.
-/

namespace Routing.Demo

/-- The machine that a state stands for. -/
def State.machine (s : State) : Machine :=
  ⟨s.names.toFinset, s.running⟩

/-! ## The endpoints -/

/-- An endpoint ends well, having done what is asked for: the state stands for the machine after the
step, and the response carries its answer. -/
structure Does (a : Ask) (x : Exchange State) (result : Outcome × Exchange State) : Prop where
  done : result.1 = .done
  machine : result.2.state.machine = (x.state.machine.step a).2
  response : result.2.response = (x.state.machine.step a).1.response x.response

variable {x y : Exchange State}

theorem does_of_step {a : Ask} {answer : Answer} {c : Machine}
    (hstep : x.state.machine.step a = (answer, c)) (hstate : y.state.machine = c)
    (hresponse : y.response = answer.response x.response) : Does a x (.done, y) := by
  refine ⟨rfl, ?_, ?_⟩
  · rw [hstep, hstate]
  · rw [hstep, hresponse]

theorem contains_eq (s : State) (name : String) :
    s.names.contains name = decide (name ∈ s.machine.names) := by
  simp [State.machine]

theorem machine_cons (s : State) (name : String) :
    State.machine { s with names := name :: s.names }
      = { s.machine with names := insert name s.machine.names } := by
  simp [State.machine]

theorem machine_filter (s : State) (name : String) :
    State.machine { s with names := s.names.filter fun n => n ≠ name }
      = { s.machine with names := s.machine.names.erase name } := by
  have hnames : (s.names.filter fun n => n ≠ name).toFinset = s.names.toFinset.erase name := by
    ext n
    rw [List.mem_toFinset, List.mem_filter, Finset.mem_erase, List.mem_toFinset, and_comm]
    simp
  unfold State.machine
  rw [hnames]

/-- An echo is answered with its text as JSON. -/
theorem attempt_echo (x : Exchange State) (text : String) :
    x.attempt (·.fillJson (echo text))
      = (.done, { x with response := (Answer.echo text).response x.response }) := by
  have hbody : Json.compact (.object [("echo", .text text)]) ≠ "" := by
    intro h
    exact absurd (String.ofList_eq_empty_iff.mp h) (by simp [Json.compactChars])
  have hfill := x.response.fill_of_ne_nil (Text.Utf8.encode_ne_nil hbody)
    ⟨Response.jsonType, by decide⟩
  unfold Exchange.attempt Response.fillJson Response.fillPayload echo Exchange.answer
  simp only at hfill ⊢
  rw [hfill, List.append_nil]
  rfl

/-- An empty body is answered with a status only. -/
theorem fill_nil {r : Response} (hr : r.body = []) (contentType : String) :
    (r.fill [] contentType).1 = (Answer.bare .noContent).response r := by
  obtain ⟨status, reason, version, headers, body⟩ := r
  obtain rfl : body = [] := hr
  rfl

theorem does_add (req : Request) (p : Properties) :
    Does (.add (req.record "name").toOption) x (addResource req p x) := by
  unfold addResource
  cases req.record "name" with
  | error e => exact ⟨rfl, rfl, rfl⟩
  | ok name =>
    simp only [contains_eq, Except.toOption, attempt_echo]
    by_cases hname : name ∈ x.state.machine.names
    · simp only [hname, decide_true, if_true]
      exact does_of_step (if_pos hname) rfl rfl
    · simp only [hname, decide_false]
      exact does_of_step (if_neg hname) (machine_cons x.state name) rfl

theorem resourceId_bound (id : String) : resourceId (bound id) = .ok id := by
  simp [resourceId, bound, Properties.value, Properties.insert, Value.kind]

theorem does_remove (req : Request) (id : String) (hx : x.response.body = []) :
    Does (.remove id) x (deleteResource req (bound id) x) := by
  unfold deleteResource
  rw [resourceId_bound]
  simp only [contains_eq]
  by_cases hname : id ∈ x.state.machine.names
  · simp only [hname, decide_true, if_true]
    exact does_of_step (if_pos hname) (machine_filter x.state id) (fill_nil hx "")
  · simp only [hname, decide_false]
    exact does_of_step (if_neg hname) rfl rfl

theorem does_read (req : Request) (id : String) :
    Does (.read id) x (getResource req (bound id) x) := by
  unfold getResource
  rw [resourceId_bound]
  simp only [contains_eq, attempt_echo]
  by_cases hname : id ∈ x.state.machine.names
  · simp only [hname, decide_true, if_true]
    exact does_of_step (if_pos hname) rfl rfl
  · simp only [hname, decide_false]
    exact does_of_step (if_neg hname) rfl rfl

theorem does_hello (req : Request) (p : Properties) : Does .hello x (hello req p x) := by
  unfold hello
  rw [attempt_echo]
  exact ⟨rfl, rfl, rfl⟩

theorem does_shutdown (tail : String) (req : Request) (hx : x.response.body = []) :
    Does .shutdown x (shutdown tail req x) :=
  does_of_step rfl rfl (fill_nil hx "")

/-- What a request may ask for below the API. -/
theorem Ask.ofSegments_cases (req : Request) (segments : List String) :
    (segments = [] ∧ ofSegments req segments = .page) ∨
      ofSegments req segments = .add (req.record "name").toOption ∨
      (∃ id, ofSegments req segments = .remove id) ∨
      (∃ id, ofSegments req segments = .read id) ∨
      ofSegments req segments = .hello ∨ ofSegments req segments = .unknown := by
  unfold ofSegments
  split
  · exact .inl ⟨rfl, rfl⟩
  · split
    · exact .inr (.inl rfl)
    · simp
  · split
    · exact .inr (.inr (.inl ⟨_, rfl⟩))
    · split
      · exact .inr (.inr (.inr (.inl ⟨_, rfl⟩)))
      · simp
  · split <;> simp
  · simp

/-- **Each endpoint does what is asked of it.** -/
theorem does_of_endpoint? {req : Request} {segments : List String} {endpoint : Endpoint State}
    {p : Properties} (h : (Ask.ofSegments req segments).endpoint? = some (endpoint, p))
    (hx : x.response.body = []) : Does (Ask.ofSegments req segments) x (endpoint req p x) := by
  rcases Ask.ofSegments_cases req segments with
    ⟨-, ha⟩ | ha | ⟨id, ha⟩ | ⟨id, ha⟩ | ha | ha <;> rw [ha] at h ⊢
  · exact nomatch h
  · obtain ⟨rfl, rfl⟩ := Prod.mk.inj (Option.some.inj h)
    exact does_add req _
  · obtain ⟨rfl, rfl⟩ := Prod.mk.inj (Option.some.inj h)
    exact does_remove req id hx
  · obtain ⟨rfl, rfl⟩ := Prod.mk.inj (Option.some.inj h)
    exact does_read req id
  · obtain ⟨rfl, rfl⟩ := Prod.mk.inj (Option.some.inj h)
    exact does_hello req _
  · exact nomatch h

/-- Where the API has no endpoint and no page for a request, nothing is asked for. -/
theorem ofSegments_eq_unknown {req : Request} {segments : List String} (hne : segments ≠ [])
    (h : (Ask.ofSegments req segments).endpoint? = none) :
    Ask.ofSegments req segments = .unknown := by
  rcases Ask.ofSegments_cases req segments with
    ⟨hnil, -⟩ | ha | ⟨id, ha⟩ | ⟨id, ha⟩ | ha | ha
  · exact absurd hnil hne
  · exact absurd h (by rw [ha]; exact nofun)
  · exact absurd h (by rw [ha]; exact nofun)
  · exact absurd h (by rw [ha]; exact nofun)
  · exact absurd h (by rw [ha]; exact nofun)
  · exact ha

/-! ## Requests -/

/-- What a request comes to is what the machine does. -/
structure Simulates (s : Server State) (state : State) (req : Request) (a : Ask)
    (o : Server State × State × Response) : Prop where
  exceptions : o.1.stats.exceptions = s.stats.exceptions
  machine : o.2.1.machine = (state.machine.step a).2
  response : o.2.2 = (state.machine.step a).1.response (s.blankResponse req)

/-- The service is mounted on a server with a base path, and nothing else is. -/
structure Serves (s : Server State) (base : String) : Prop where
  represents : s.store.Represents mounts
  base : s.store.base = base

variable {s : Server State} {state : State} {req : Request} {base : String}

theorem simulates_of_does {a : Ask} {result : Outcome × Exchange State}
    (h : Does a ⟨state, s.blankResponse req, []⟩ result) :
    Simulates s state req a (s.settle result) := by
  obtain ⟨o, y⟩ := result
  obtain ⟨rfl, hstate, hresponse⟩ := h
  exact ⟨rfl, hstate, hresponse⟩

theorem simulates_of_endpoint {a : Ask} {route : Route State} {p : Properties}
    (h : Does a (s.received state req) (route.endpoint req p (s.received state req))) :
    Simulates s state req a (s.respond state req (.endpoint route p)) := by
  generalize hresult : route.endpoint req p (s.received state req) = result at h
  obtain ⟨o, y⟩ := result
  obtain ⟨rfl, hmachine, hresponse⟩ := h
  rw [Server.respond, hresult]
  exact ⟨rfl, hmachine, hresponse⟩

/-- A request to the API is one step of the machine. -/
theorem simulates_of_lookup_api {tail : String}
    (h : s.store.lookup req.method req.target = some (tail, .api compiled)) :
    Simulates s state req (Ask.ofSegments req (Target.segments tail))
      (s.process state req).outcome := by
  by_cases hroot : OnlySlashes tail
  · rw [Server.process_of_lookup_eq_api h (.page hroot), Server.segments_eq_nil_iff.mpr hroot]
    exact ⟨rfl, rfl, rfl⟩
  have hendpoint := lookup_compiled req tail
  cases hfound : compiled.lookup req.method tail with
  | none =>
    rw [Server.process_of_lookup_eq_api h (.noRoute hroot hfound)]
    rw [hfound] at hendpoint
    have hne : Target.segments tail ≠ [] := mt Server.segments_eq_nil_iff.mp hroot
    rw [ofSegments_eq_unknown hne hendpoint.symm]
    exact ⟨rfl, rfl, rfl⟩
  | some found =>
    rw [Server.process_of_lookup_eq_api h (.endpoint hroot hfound)]
    rw [hfound] at hendpoint
    exact simulates_of_endpoint (does_of_endpoint? hendpoint.symm rfl)

/-- **One request is one step of the machine.** -/
theorem process_simulates (hs : Serves s base) (state : State) (req : Request) :
    Simulates s state req (Ask.ofRequest base req) (s.process state req).outcome := by
  obtain ⟨hrep, rfl⟩ := hs
  unfold Ask.ofRequest
  cases hapi : Store.tail? s.store.base "api/v1" req.target with
  | some tail => exact simulates_of_lookup_api (lookup_of_tail?_api hrep _ hapi)
  | none =>
    by_cases hask : req.method = .post ∧ (Store.tail? s.store.base "shutdown" req.target).isSome
    · obtain ⟨hpost, hsome⟩ := hask
      obtain ⟨tail, htail⟩ := Option.isSome_iff_exists.mp hsome
      have hfound := lookup_of_tail?_shutdown hrep htail
      rw [← hpost] at hfound
      rw [Server.process_of_lookup_eq_some hfound]
      simp only [hpost, hsome, and_self, if_true]
      exact simulates_of_does (does_shutdown tail req rfl)
    · have hnone : s.store.lookup req.method req.target = none :=
        lookup_eq_none hrep hapi fun hpost => by simpa [hpost] using hask
      rw [Server.process_of_lookup_eq_none hnone]
      simp only [hask, if_false]
      exact ⟨rfl, rfl, rfl⟩

/-- The service stays mounted. -/
theorem serves_process (hs : Serves s base) (state : State) (req : Request) :
    Serves (s.process state req).server base := by
  have hstore : (s.process state req).server.store = s.store :=
    (Server.store_process s state req).1
  obtain ⟨hrep, hbase⟩ := hs
  refine ⟨?_, ?_⟩
  · rw [hstore]
    exact hrep
  · rw [hstore]
    exact hbase

/-! ## Runs -/

theorem status_response (a : Answer) (blank : Response) :
    (a.response blank).status = a.status := by
  unfold Answer.response
  cases a.content? <;> rfl

/-- **A run of requests is a run of the machine**, from any state on. -/
theorem simulates_processAll (hs : Serves s base) (state : State) (reqs : List Request) :
    let run := state.machine.run (reqs.map (Ask.ofRequest base))
    (s.processAll state reqs).1
        = List.zipWith (fun a req => a.response (s.blankResponse req)) run.1 reqs ∧
      (s.processAll state reqs).2.2.machine = run.2 ∧
      (s.processAll state reqs).2.1.stats.exceptions = s.stats.exceptions ∧
      ∀ response ∈ (s.processAll state reqs).1, response.status ∈ Machine.statuses := by
  induction reqs generalizing s state with
  | nil => exact ⟨rfl, rfl, rfl, fun _ h => nomatch h⟩
  | cons req reqs ih =>
    obtain ⟨hexceptions, hmachine, hresponse⟩ := process_simulates hs state req
    simp only [Reply.outcome] at hexceptions hmachine hresponse
    have hblank : (s.process state req).server.blankResponse = s.blankResponse := by
      have hsignature : (s.process state req).server.signature = s.signature :=
        (Server.store_process s state req).2
      funext r
      unfold Server.blankResponse
      rw [hsignature]
    have hrest := ih (serves_process hs state req) (s.process state req).state
    rw [hblank, hmachine, hexceptions] at hrest
    obtain ⟨hresponses, hmachine', hexceptions', hstatus⟩ := hrest
    simp only [Server.processAll, List.map_cons, Machine.run, List.zipWith_cons_cons]
    refine ⟨by rw [hresponse, hresponses], hmachine', hexceptions', ?_⟩
    intro response hmem
    rcases List.mem_cons.mp hmem with rfl | hmem
    · rw [hresponse, status_response]
      exact Machine.status_step_mem _ _
    · exact hstatus response hmem

/-- **The demo service is the machine.** On a server below any base path, on which nothing but the
service is registered, the responses to any requests carry the answers of the machine to what they
ask for, one after the other, and the state afterwards stands for the machine afterwards. No handler
fails, and no response has status 500. -/
theorem processAll_simulates (base name : String) (reqs : List Request) :
    ∃ s, (register (Server.new base name).1).1 = .ok s ∧
      let asks := reqs.map (Ask.ofRequest (Target.trimSlashes base))
      let run := s.processAll {} reqs
      run.1 = List.zipWith (fun a req => a.response (s.blankResponse req))
          (Machine.run {} asks).1 reqs ∧
        run.2.2.machine = (Machine.run {} asks).2 ∧
        run.2.1.stats.exceptions = 0 ∧
        ∀ response ∈ run.1, response.status ≠ .internalError := by
  obtain ⟨hnew, hbase, hstats⟩ := Server.new_spec base name
  obtain ⟨s, hok, hrep, hbase', hstats', -⟩ := register_spec hnew
  refine ⟨s, hok, ?_⟩
  obtain ⟨hresponses, hmachine, hexceptions, hstatus⟩ :=
    simulates_processAll ⟨hrep, hbase'.trans hbase⟩ {} reqs
  refine ⟨hresponses, hmachine, ?_, fun response hmem he => ?_⟩
  · rw [hexceptions, hstats', hstats]
  · have hmem' := hstatus response hmem
    rw [he] at hmem'
    exact absurd hmem' (by decide)

end Routing.Demo
