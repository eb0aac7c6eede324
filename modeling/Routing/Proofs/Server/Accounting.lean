import Mathlib.Data.List.DropRight
import Routing.Proofs.Server.Suffix

/-!
# What a server counts

A server is called to change what is mounted, to answer requests, and to hand out its counts, in any
order. A request is unknown if nothing is mounted for it, fails if what is mounted gives up with an
error or crashes, and is answered otherwise. The counts are those of the requests since they were
last taken: all of them, the unknown ones and those that fail. They are kept in 64 bits, so they are
exact for fewer than `2 ^ 64` requests.

* `tallies_call`: what one call does to the counts.
* `store_run`: what is mounted after calls is what the changes among them leave mounted.
* `takeStats_run`: the counts after any calls, and what requests are answered that nothing is
  mounted for, or that fail.
-/

namespace Routing.Server

variable {σ : Type}

/-- A call to a server. -/
inductive Call (σ : Type) where
  /-- Changes what is mounted. -/
  | change (c : Change σ)
  /-- Hands in a request. -/
  | process (req : Request)
  /-- Takes the counts. -/
  | takeStats

/-- The change that a call makes to what is mounted. -/
def Call.change? : Call σ → Option (Change σ)
  | .change c => some c
  | _ => none

/-- What becomes of a request. -/
inductive Fate where
  /-- Nothing is mounted for it. -/
  | unknown
  /-- What is mounted gives up with an error, or crashes. -/
  | failed
  /-- What is mounted ends well. -/
  | answered
deriving DecidableEq

/-- What becomes of a request, by what is mounted for it and how that ends. -/
def fate (s : Server σ) (state : σ) (req : Request) : Fate :=
  match s.store.lookup req.method req.target with
  | none => .unknown
  | some (tail, m) =>
    match (m.serve tail req ⟨state, s.blankResponse req, []⟩).1 with
    | .done => .answered
    | .failed _ => .failed
    | .crashed => .failed

/-- What a call amounts to. -/
inductive Event where
  /-- A change of what is mounted. -/
  | changed
  /-- A request. -/
  | request (f : Fate)
  /-- The counts were taken. -/
  | taken
deriving DecidableEq

/-- Whether an event is a request. -/
def Event.isRequest : Event → Bool
  | .request _ => true
  | _ => false

/-- A server that is called, the state of its application, and the events so far. -/
structure Run (σ : Type) where
  /-- The server. -/
  server : Server σ
  /-- The state of the application. -/
  state : σ
  /-- The events, oldest first. -/
  events : List Event

namespace Run

/-- One more call. -/
def call (r : Run σ) : Call σ → Run σ
  | .change c => ⟨r.server.change c, r.state, r.events ++ [.changed]⟩
  | .process req =>
    let reply := r.server.process r.state req
    ⟨reply.server, reply.state, r.events ++ [.request (r.server.fate r.state req)]⟩
  | .takeStats => ⟨r.server.takeStats.2, r.state, r.events ++ [.taken]⟩

/-- The events since the counts were last taken. -/
def window (r : Run σ) : List Event :=
  r.events.rtakeWhile (· ≠ .taken)

end Run

/-- Calls to a new server, one after the other. -/
def run (base name : String) (state : σ) (calls : List (Call σ)) : Run σ :=
  calls.foldl Run.call ⟨(new base name).1, state, []⟩

/-- The counts are those of a list of events, as far as 64 bits hold them. -/
structure Tallies (stats : Stats) (w : List Event) : Prop where
  requests : stats.requests = .ofNat (w.countP Event.isRequest)
  unknown : stats.unknownRequests = .ofNat (w.count (.request .unknown))
  exceptions : stats.exceptions = .ofNat (w.count (.request .failed))

/-! ## One request -/

/-- The server with one more request counted, by what becomes of it. -/
def counted (s : Server σ) : Fate → Server σ
  | .unknown => s.countUnknown
  | .failed => s.countException
  | .answered => s.count

variable {s : Server σ} {state : σ} {req : Request}

theorem lookup_eq_none_of_unknown (h : s.fate state req = .unknown) :
    s.store.lookup req.method req.target = none := by
  unfold fate at h
  split at h
  next hl => exact hl
  next => split at h <;> cases h

/-- **A request counts** by what becomes of it, and changes nothing else of the server. -/
theorem server_process (s : Server σ) (state : σ) (req : Request) :
    (s.process state req).server = s.counted (s.fate state req) := by
  change (s.process state req).outcome.1 = _
  unfold fate
  cases hl : s.store.lookup req.method req.target with
  | none =>
    rw [process_of_lookup_eq_none hl]
    rfl
  | some found =>
    obtain ⟨tail, m⟩ := found
    rw [process_of_lookup_eq_some hl]
    dsimp only
    obtain ⟨o, x⟩ := m.serve tail req ⟨state, s.blankResponse req, []⟩
    cases o <;> rfl

/-- An unknown request is answered by 404. -/
theorem response_of_unknown (h : s.fate state req = .unknown) :
    (s.process state req).response = (s.blankResponse req).setStatus .notFound :=
  congrArg (fun o => o.2.2) (process_of_lookup_eq_none (lookup_eq_none_of_unknown h))

/-- The server answers for what is mounted if it fails. -/
theorem response_of_failed (h : s.fate state req = .failed) :
    ∃ r, (s.process state req).response = fail r := by
  change ∃ r, (s.process state req).outcome.2.2 = fail r
  unfold fate at h
  split at h
  next => cases h
  next tail m hl =>
    rw [process_of_lookup_eq_some hl]
    generalize m.serve tail req ⟨state, s.blankResponse req, []⟩ = result at h ⊢
    obtain ⟨o, x⟩ := result
    cases o with
    | done => cases h
    | failed e => exact ⟨x.response, rfl⟩
    | crashed => exact ⟨x.response, rfl⟩

/-! ## Counts -/

theorem tallies_nil : Tallies {} [] where
  requests := rfl
  unknown := rfl
  exceptions := rfl

variable {w : List Event}

theorem tallies_changed {stats : Stats} (h : Tallies stats w) :
    Tallies stats (w ++ [.changed]) where
  requests := by simpa [Event.isRequest] using h.requests
  unknown := by simpa using h.unknown
  exceptions := by simpa using h.exceptions

/-- A request counts once among all, and once as what becomes of it. -/
theorem tallies_counted (h : Tallies s.stats w) (f : Fate) :
    Tallies (s.counted f).stats (w ++ [.request f]) := by
  cases f with
  | unknown =>
    constructor
    · simp [counted, countUnknown, h.requests, Event.isRequest, UInt64.ofNat_add]
    · simp [counted, countUnknown, h.unknown, UInt64.ofNat_add]
    · simp [counted, countUnknown, h.exceptions]
  | failed =>
    constructor
    · simp [counted, countException, h.requests, Event.isRequest, UInt64.ofNat_add]
    · simp [counted, countException, h.unknown]
    · simp [counted, countException, h.exceptions, UInt64.ofNat_add]
  | answered =>
    constructor
    · simp [counted, count, h.requests, Event.isRequest, UInt64.ofNat_add]
    · simp [counted, count, h.unknown]
    · simp [counted, count, h.exceptions]

theorem stats_unroute (s : Server σ) (v : Verb) (path : String) :
    (s.unroute v path).2.1.stats = s.stats ∧ (s.unroute v path).2.1.signature = s.signature := by
  unfold unroute
  split <;> exact ⟨rfl, rfl⟩

theorem stats_register (s : Server σ) (a : Api σ) :
    (s.register a).stats = s.stats ∧ (s.register a).signature = s.signature := by
  unfold register registerApi
  cases a.build <;> exact ⟨rfl, rfl⟩

/-- Changes of what is mounted leave the counts and the Server header. -/
theorem stats_change (s : Server σ) (c : Change σ) :
    (s.change c).stats = s.stats ∧ (s.change c).signature = s.signature := by
  cases c with
  | mount v path m => exact ⟨rfl, rfl⟩
  | unroute v path => exact stats_unroute s v path
  | register a => exact stats_register s a

/-- **One call** keeps the counts those of the events since they were last taken. -/
theorem tallies_call {r : Run σ} (h : Tallies r.server.stats r.window) (c : Call σ) :
    Tallies (r.call c).server.stats (r.call c).window := by
  cases c with
  | change c =>
    have hw : (r.call (.change c)).window = r.window ++ [.changed] :=
      List.rtakeWhile_concat_pos _ _ _ (by decide)
    rw [hw]
    change Tallies (r.server.change c).stats _
    rw [(stats_change r.server c).1]
    exact tallies_changed h
  | process req =>
    have hw : (r.call (.process req)).window
        = r.window ++ [.request (r.server.fate r.state req)] :=
      List.rtakeWhile_concat_pos _ _ _ (by simp)
    rw [hw]
    change Tallies (r.server.process r.state req).server.stats _
    rw [server_process]
    exact tallies_counted h _
  | takeStats =>
    have hw : (r.call .takeStats).window = [] :=
      List.rtakeWhile_concat_neg _ _ _ (by simp)
    rw [hw]
    exact tallies_nil

/-! ## Runs -/

theorem stats_new (base name : String) : (new base name : Server σ × _).1.stats = {} :=
  (new_spec base name).2.2

/-- **After any calls** the counts are those of the events since they were last taken. -/
theorem tallies_run (base name : String) (state : σ) (calls : List (Call σ)) :
    Tallies (run base name state calls).server.stats (run base name state calls).window := by
  refine List.foldlRecOn (motive := fun r => Tallies r.server.stats r.window) calls Run.call ?_
    fun r h c _ => tallies_call h c
  rw [stats_new]
  exact tallies_nil

theorem signature_call (r : Run σ) (c : Call σ) :
    (r.call c).server.signature = r.server.signature := by
  cases c with
  | change c => exact (stats_change r.server c).2
  | process req => exact (store_process r.server r.state req).2
  | takeStats => rfl

theorem signature_run (base name : String) (state : σ) (calls : List (Call σ)) :
    (run base name state calls).server.signature
      = (new base name : Server σ × _).1.signature := by
  refine List.foldlRecOn
    (motive := fun r => r.server.signature = (new base name : Server σ × _).1.signature)
    calls Run.call ?_ fun r h c _ => (signature_call r c).trans h
  rfl

/-- What is mounted after calls is what the changes among them leave mounted. -/
theorem store_run (base name : String) (state : σ) (calls : List (Call σ)) :
    (run base name state calls).server.store
      = (changed base name (calls.filterMap Call.change?)).store := by
  have hfoldl : ∀ r : Run σ, (calls.foldl Run.call r).server.store
      = ((calls.filterMap Call.change?).flatMap Change.updates).foldl Store.apply
          r.server.store := by
    induction calls with
    | nil => exact fun _ => rfl
    | cons c cs ih =>
      intro r
      rw [List.foldl_cons, ih]
      cases c with
      | change c =>
        have hcs : (Call.change c :: cs).filterMap Call.change? = c :: cs.filterMap Call.change? :=
          rfl
        have hc : (r.call (.change c)).server.store = (r.server.change c).store := rfl
        rw [hcs, hc, store_change, List.flatMap_cons, List.foldl_append]
      | process req =>
        have hreq : (r.call (.process req)).server.store = r.server.store :=
          (store_process r.server r.state req).1
        rw [hreq]
        rfl
      | takeStats => rfl
  rw [store_changed, run, hfoldl, store_new]
  rfl

/-- Of the requests some are unknown, and others fail. -/
theorem count_add_count_le (w : List Event) :
    w.count (.request .unknown) + w.count (.request .failed) ≤ w.countP Event.isRequest := by
  induction w with
  | nil => exact le_refl _
  | cons e w ih =>
    cases e with
    | changed => simpa [Event.isRequest] using ih
    | taken => simpa [Event.isRequest] using ih
    | request f =>
      have hone : (Event.request f).isRequest = true := rfl
      rw [List.count_cons, List.count_cons, List.countP_cons_of_pos hone]
      cases f <;> simp <;> omega

/-- **What a server counts.** After any calls to a new server the counts that it hands out are those
of the requests since they were last taken, if these are fewer than `2 ^ 64`: all of them, the
unknown ones and those that fail. Neither requests nor taking the counts change what is mounted. An
unknown request is answered by 404 with the Server header, in the version of the request, and one
that fails by 500 with a phrase of its own and without a body. -/
theorem takeStats_run (base name : String) (state : σ) (calls : List (Call σ)) :
    let r := run base name state calls
    (r.window.countP Event.isRequest < 2 ^ 64 →
      r.server.takeStats.1.requests.toNat = r.window.countP Event.isRequest ∧
        r.server.takeStats.1.unknownRequests.toNat = r.window.count (.request .unknown) ∧
        r.server.takeStats.1.exceptions.toNat = r.window.count (.request .failed) ∧
        r.server.takeStats.1.unknownRequests.toNat + r.server.takeStats.1.exceptions.toNat
          ≤ r.server.takeStats.1.requests.toNat) ∧
      r.server.store = (changed base name (calls.filterMap Call.change?)).store ∧
      r.server.takeStats.2.store = r.server.store ∧
      ∀ req, (r.server.process r.state req).server.store = r.server.store ∧
        (r.server.fate r.state req = .unknown →
          (r.server.process r.state req).response
            = { status := .notFound, reason := none, version := req.version,
                headers := Headers.empty.insert .server (new base name : Server σ × _).1.signature,
                body := [] }) ∧
        (r.server.fate r.state req = .failed →
          (r.server.process r.state req).response.status = .internalError ∧
            (r.server.process r.state req).response.reason = some "Exception happened" ∧
            (r.server.process r.state req).response.body = []) := by
  intro r
  refine ⟨fun hlt => ?_, store_run base name state calls, rfl,
    fun req => ⟨?_, fun h => ?_, fun h => ?_⟩⟩
  · have htallies : Tallies r.server.stats r.window := tallies_run base name state calls
    have hle := count_add_count_le r.window
    have hexact : ∀ {n}, n ≤ r.window.countP Event.isRequest → (UInt64.ofNat n).toNat = n :=
      fun hn => UInt64.toNat_ofNat_of_lt' (lt_of_le_of_lt hn hlt)
    have hrequests : r.server.takeStats.1.requests.toNat = r.window.countP Event.isRequest := by
      rw [takeStats, htallies.requests, hexact (le_refl _)]
    have hunknown : r.server.takeStats.1.unknownRequests.toNat
        = r.window.count (.request .unknown) := by
      rw [takeStats, htallies.unknown, hexact (by omega)]
    have hexceptions : r.server.takeStats.1.exceptions.toNat
        = r.window.count (.request .failed) := by
      rw [takeStats, htallies.exceptions, hexact (by omega)]
    exact ⟨hrequests, hunknown, hexceptions, by rw [hrequests, hunknown, hexceptions]; exact hle⟩
  · exact (store_process r.server r.state req).1
  · rw [response_of_unknown h, ← signature_run base name state calls]
    rfl
  · obtain ⟨x, hx⟩ := response_of_failed h
    rw [hx]
    exact ⟨rfl, rfl, rfl⟩

/-- Calls between which the counts are taken and what is mounted changes: a handler that crashes is
taken away. -/
def busy : List (Call Unit) :=
  let get (target : String) : Call Unit := .process { method := .get, target }
  [.change (.mount (.exact .get) "a/b" (.handler fun _ _ x => (.crashed, x))),
    .change (.mount .any "a" (.handler fun _ _ x => (.done, x))), get "/a/b", get "/c", .takeStats,
    get "/a/b?q", .change (.unroute (.exact .get) "a/b"), get "/a/b", get "/c"]

/-- What was counted before the counts were taken is not counted again. -/
theorem takeStats_run_busy :
    let r := run "" "name" () busy
    let req : Request := { method := .put, target := "/", version := .http10 }
    r.window = [.request .failed, .changed, .request .answered, .request .unknown] ∧
      r.window.countP Event.isRequest < 2 ^ 64 ∧
      r.server.takeStats.1.requests.toNat = 3 ∧ r.server.takeStats.1.unknownRequests.toNat = 1 ∧
      r.server.takeStats.1.exceptions.toNat = 1 ∧ r.server.fate r.state req = .unknown ∧
      (r.server.process r.state req).response.status = .notFound ∧
      (r.server.process r.state req).response.version = .http10 := by
  intro r req
  have hwindow : r.window
      = [.request .failed, .changed, .request .answered, .request .unknown] := by decide
  have hlt : r.window.countP Event.isRequest < 2 ^ 64 := by
    rw [hwindow]
    decide
  have hfate : r.server.fate r.state req = .unknown := by decide
  obtain ⟨hcounts, -, -, hreq⟩ := takeStats_run "" "name" () busy
  obtain ⟨hrequests, hunknown, hexceptions, -⟩ := hcounts hlt
  have hresponse := (hreq req).2.1 hfate
  refine ⟨hwindow, hlt, hrequests.trans ?_, hunknown.trans ?_, hexceptions.trans ?_, hfate, ?_, ?_⟩
  · exact congrArg (List.countP Event.isRequest) hwindow
  · exact congrArg (List.count (Event.request .unknown)) hwindow
  · exact congrArg (List.count (Event.request .failed)) hwindow
  · exact congrArg Response.status hresponse
  · exact congrArg Response.version hresponse

end Routing.Server
