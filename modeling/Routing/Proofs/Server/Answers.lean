import Routing.Server

/-!
# How requests are answered

A request ends at the page of an API, at an endpoint with properties, below an API that has no
route for it, or nowhere. `respond` says for each of these what the server, the application and the
response are afterwards; only the last is counted as an unknown request.

* `process_of_lookup_eq_none`: a request for which nothing is mounted ends nowhere.
* `process_of_lookup_eq_api`: a request that is handed to an API ends where the API leads it.
-/

namespace Routing

variable {σ : Type}

/-- Where a request ends. -/
inductive Destination (σ : Type) where
  /-- The page of an API. -/
  | page (a : CompiledApi σ)
  /-- An endpoint, with the properties bound along the path. -/
  | endpoint (route : Route σ) (p : Properties)
  /-- An API without a route for the request. -/
  | noRoute
  /-- Nothing is mounted for the request. -/
  | nowhere

/-- There is nothing but slashes in the path of a tail. -/
def OnlySlashes (tail : String) : Prop :=
  ∀ c ∈ tail.toList.takeWhile fun c => c ≠ '?' ∧ c ≠ '#', c = '/'

/-- Where a request below an API ends: at the page if its tail has no segment, and else where the
matcher of the API leads it. -/
inductive CompiledApi.Leads (a : CompiledApi σ) (m : Method) (tail : String) :
    Destination σ → Prop
  | page : OnlySlashes tail → a.Leads m tail (.page a)
  | endpoint {route : Route σ} {p : Properties} : ¬ OnlySlashes tail →
    a.lookup m tail = some (route, p) → a.Leads m tail (.endpoint route p)
  | noRoute : ¬ OnlySlashes tail → a.lookup m tail = none → a.Leads m tail .noRoute

theorem CompiledApi.exists_leads (a : CompiledApi σ) (m : Method) (tail : String) :
    ∃ d, a.Leads m tail d := by
  by_cases h : OnlySlashes tail
  · exact ⟨_, .page h⟩
  · cases hl : a.lookup m tail with
    | none => exact ⟨_, .noRoute h hl⟩
    | some found => exact ⟨_, .endpoint h hl⟩

/-- What a reply says, the records aside. -/
def Reply.outcome (r : Reply σ) : Server σ × σ × Response :=
  (r.server, r.state, r.response)

/-- Content is answered with status 200 under its media type. -/
theorem Response.fill_of_ne_nil (r : Response) {body : Bytes} (h : body ≠ []) (v : HeaderValue) :
    r.fill body v.text = (((r.setStatus .ok).setHeader .contentType v).setBody body, []) := by
  have htype : HeaderValue.ofString? v.text = some v := dif_pos v.legal
  have hbody : body.isEmpty = false := List.isEmpty_eq_false_iff.mpr h
  unfold fill
  rw [hbody, htype]
  rfl

namespace Server

/-- The server with one more request counted. -/
def count (s : Server σ) : Server σ :=
  { s with stats := { s.stats with requests := s.stats.requests + 1 } }

/-- The server with one more request counted that nothing is mounted for. -/
def countUnknown (s : Server σ) : Server σ :=
  { s with stats := { s.stats with
    requests := s.stats.requests + 1, unknownRequests := s.stats.unknownRequests + 1 } }

/-- The server with one more request counted whose handler failed or crashed. -/
def countException (s : Server σ) : Server σ :=
  { s with stats := { s.stats with
    requests := s.stats.requests + 1, exceptions := s.stats.exceptions + 1 } }

/-- The media type of a page, as a header value. -/
def pageType : HeaderValue :=
  ⟨Response.htmlType, rfl⟩

/-- What an endpoint gets to work on. -/
def received (s : Server σ) (state : σ) (req : Request) : Exchange σ :=
  ⟨state, s.blankResponse req,
    [⟨.debug, Mount.origin, "got request: " ++ req.method.name ++ " " ++ req.target⟩]⟩

/-- **The server, the application and the response after a request**, by where it ends. An API
answers for an endpoint that fails, and the server for one that crashes. -/
def respond (s : Server σ) (state : σ) (req : Request) : Destination σ → Server σ × σ × Response
  | .page a => (s.count, state, (((s.blankResponse req).setStatus .ok).setHeader .contentType
      pageType).setBody (Text.Utf8.encode (Introspection.page a.api)))
  | .endpoint route p =>
    match route.endpoint req p (s.received state req) with
    | (.done, x) => (s.count, x.state, x.response)
    | (.failed _, x) => (s.count, x.state, x.response.setStatus .internalError)
    | (.crashed, x) => (s.countException, x.state, fail x.response)
  | .noRoute => (s.count, state, (s.blankResponse req).setStatus .notFound)
  | .nowhere => (s.countUnknown, state, (s.blankResponse req).setStatus .notFound)

/-! ## The root of an API -/

theorem pathChars_eq_takeWhile (s : List Char) :
    Target.pathChars s = s.takeWhile fun c => c ≠ '?' ∧ c ≠ '#' := by
  refine congrArg (fun p => s.takeWhile p) (funext fun c => ?_)
  simp [Target.endsPath]

/-- A tail without segments asks for the root. -/
theorem segments_eq_nil_iff {tail : String} : Target.segments tail = [] ↔ OnlySlashes tail := by
  unfold OnlySlashes Target.segments Target.path Text.splitText
  rw [← pathChars_eq_takeWhile, ← Text.forall_split_eq_nil_iff, String.toList_ofList,
    List.filter_eq_nil_iff]
  simp

theorem isRoot_iff {tail : String} : Mount.isRoot tail = true ↔ OnlySlashes tail := by
  unfold Mount.isRoot OnlySlashes
  rw [Text.head?_splitWhere, Option.all_some, decide_eq_true_iff, Text.trim_eq_nil_iff,
    ← pathChars_eq_takeWhile]
  simp [Target.isSlash, Target.pathChars]

theorem page_ne_empty (a : Api σ) : Introspection.page a ≠ "" := by
  intro h
  have hempty := congrArg String.toList h
  unfold Introspection.page at hempty
  rw [String.toList_append, String.toList_empty, List.append_eq_nil_iff] at hempty
  exact absurd hempty.2 (by decide)

/-- A page is answered with status 200 under its media type. -/
theorem fill_page (r : Response) (a : Api σ) :
    (r.fill (Text.Utf8.encode (Introspection.page a)) Response.htmlType).1
      = ((r.setStatus .ok).setHeader .contentType pageType).setBody
          (Text.Utf8.encode (Introspection.page a)) :=
  congrArg Prod.fst (r.fill_of_ne_nil (Text.Utf8.encode_ne_nil (page_ne_empty a)) pageType)

/-! ## Requests -/

variable {s : Server σ} {state : σ} {req : Request}

theorem process_of_lookup_eq_none (h : s.store.lookup req.method req.target = none) :
    (s.process state req).outcome = s.respond state req .nowhere := by
  unfold process
  rw [h]
  rfl

/-- What the server makes of how a handler ends: it answers for a failure and for a crash. -/
def settle (s : Server σ) : Outcome × Exchange σ → Server σ × σ × Response
  | (.done, x) => (s.count, x.state, x.response)
  | (_, x) => (s.countException, x.state, fail x.response)

theorem process_of_lookup_eq_some {tail : String} {m : Mount σ}
    (h : s.store.lookup req.method req.target = some (tail, m)) :
    (s.process state req).outcome
      = s.settle (m.serve tail req ⟨state, s.blankResponse req, []⟩) := by
  unfold process
  rw [h]
  simp only
  obtain ⟨o, x⟩ := m.serve tail req ⟨state, s.blankResponse req, []⟩
  cases o <;> rfl

theorem settle_fill (s : Server σ) (x : Exchange σ) (body : Bytes) (contentType : String) :
    s.settle (.done, x.fill body contentType)
      = (s.count, x.state, (x.response.fill body contentType).1) := rfl

/-- **A request that is handed to an API ends where the API leads it.** -/
theorem process_of_lookup_eq_api {tail : String} {a : CompiledApi σ} {d : Destination σ}
    (h : s.store.lookup req.method req.target = some (tail, .api a))
    (hd : a.Leads req.method tail d) :
    (s.process state req).outcome = s.respond state req d := by
  rw [process_of_lookup_eq_some h, Mount.serve, Mount.serveApi]
  cases hd with
  | page hroot =>
    rw [if_pos (isRoot_iff.mpr hroot), settle_fill, fill_page]
    rfl
  | endpoint hroot hl =>
    rename_i route p
    rw [if_neg (mt isRoot_iff.mp hroot), hl]
    unfold respond received
    simp only [Exchange.tell, List.nil_append]
    split
    · rename_i e x hx
      rw [hx]
      rfl
    · rename_i hx
      split
      · rename_i x hx'
        rw [hx']
        rfl
      · rename_i e x hx'
        exact absurd hx' (hx e x)
      · rename_i x hx'
        rw [hx']
        rfl
  | noRoute hroot hl =>
    rw [if_neg (mt isRoot_iff.mp hroot), hl]
    rfl

/-! ## Runs of requests -/

theorem store_settle (s : Server σ) (r : Outcome × Exchange σ) :
    (s.settle r).1.store = s.store ∧ (s.settle r).1.signature = s.signature := by
  obtain ⟨o, x⟩ := r
  cases o <;> exact ⟨rfl, rfl⟩

/-- A request changes neither what is mounted nor the Server header. -/
theorem store_process (s : Server σ) (state : σ) (req : Request) :
    (s.process state req).outcome.1.store = s.store ∧
      (s.process state req).outcome.1.signature = s.signature := by
  cases h : s.store.lookup req.method req.target with
  | none =>
    rw [process_of_lookup_eq_none h]
    exact ⟨rfl, rfl⟩
  | some found =>
    rw [process_of_lookup_eq_some h]
    exact store_settle s _

/-- Answers requests one after the other: the responses, and the server and the application
afterwards. -/
def processAll (s : Server σ) (state : σ) : List Request → List Response × Server σ × σ
  | [] => ([], s, state)
  | req :: reqs =>
    let reply := s.process state req
    let (responses, s, state) := processAll reply.server reply.state reqs
    (reply.response :: responses, s, state)

end Server

end Routing
