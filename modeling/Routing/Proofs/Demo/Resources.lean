import Routing.Proofs.Demo.Simulation
import Routing.Proofs.Json.Texts

/-!
# Names that can be asked for

A resource is added under the name that a body gives, which is any text, but it is shown and removed
under a name that is a segment of a target. So a resource whose name is no segment is there for good:
no request shows it or takes it away, and adding it again is refused. Every other resource can be
shown and removed.

* `Ask.isSegment_of_ofRequest`, `Ask.ofRequest_resource`: which names can be asked for.
* `Machine.mem_names_run`: what is not asked to be removed stays.
* `readable_iff`, `removable_iff`: which resources can be shown and removed.
* `addressed_iff_isSegment`: the same after any run of requests.
-/

namespace Routing.Demo

open Target (IsSegment)

/-! ## What requests ask for -/

variable {base : String} {req : Request} {id n : String}

theorem Ask.mem_of_ofSegments {segments : List String}
    (h : ofSegments req segments = .remove id ∨ ofSegments req segments = .read id) :
    id ∈ segments := by
  unfold ofSegments at h
  split at h
  · simp at h
  · split at h <;> simp at h
  · split at h
    · simp_all
    · split at h
      · simp_all
      · simp at h
  · split at h <;> simp at h
  · simp at h

/-- **What is asked to be removed or shown is a segment.** -/
theorem Ask.isSegment_of_ofRequest
    (h : ofRequest base req = .remove id ∨ ofRequest base req = .read id) : IsSegment id := by
  unfold ofRequest at h
  cases htail : Store.tail? base "api/v1" req.target with
  | some tail =>
    rw [htail] at h
    exact .of_mem (mem_of_ofSegments h)
  | none =>
    rw [htail] at h
    simp only at h
    split at h <;> simp at h

/-- The target of a resource, of a service below a base path. -/
def resourceTarget (base id : String) : String :=
  base ++ "/" ++ "api/v1" ++ ("/" ++ "resource" ++ "/" ++ id)

/-- **Every segment can be asked for.** -/
theorem Ask.ofRequest_resource (hbase : Text.trim Target.isSlash base.toList = base.toList)
    (hid : IsSegment id) (htarget : req.target = resourceTarget base id) :
    ofRequest base req
      = if req.method = .delete then .remove id else if req.method = .get then .read id
        else .unknown := by
  have hboundary : Target.atBoundary ("/" ++ "resource" ++ "/" ++ id).toList = true := by
    simp [Target.atBoundary, Target.endsSegment]
  rw [ofRequest, htarget, resourceTarget, Store.tail?_append hbase hboundary]
  simp only
  rw [Target.segments_pair (by decide) hid]
  rfl

/-- A request posts a name: it is a POST to the resources below the API, and its body names it. -/
structure Posts (base n : String) (req : Request) : Prop where
  method : req.method = .post
  target : ∃ tail, Store.tail? base "api/v1" req.target = some tail ∧
    Target.segments tail = ["resource"]
  body : req.record "name" = .ok n

theorem Posts.ofRequest (h : Posts base n req) : Ask.ofRequest base req = .add (some n) := by
  obtain ⟨hmethod, ⟨tail, htail, hsegments⟩, hbody⟩ := h
  rw [Ask.ofRequest, htail]
  simp only [hsegments, Ask.ofSegments, hmethod, if_true, hbody, Except.toOption]

/-- Every text can be posted. -/
theorem exists_posts (hbase : Text.trim Target.isSlash base.toList = base.toList) (n : String) :
    ∃ req, Posts base n req := by
  let req : Request :=
    { method := .post
      target := base ++ "/" ++ "api/v1" ++ "/resource"
      body := Text.Utf8.encode (Json.compact (.object [("name", .text n)])) }
  have hbody : req.record "name" = .ok n := by
    simp only [req, Request.record, Json.readRecord?_compact]
  exact ⟨req, rfl, ⟨"/resource", Store.tail?_append hbase (by decide), by decide⟩, hbody⟩

/-! ## What the machine does -/

namespace Machine

variable {c : Machine}

/-- A name stays unless it is asked to be removed. -/
theorem mem_names_step {a : Ask} (hn : n ∈ c.names) (ha : a ≠ .remove n) :
    n ∈ (c.step a).2.names := by
  rcases a with _ | (_ | name) | id | id | _ | _ | _
  case add.some =>
    rw [step]
    split
    · exact hn
    · exact Finset.mem_insert_of_mem hn
  case remove =>
    have hne : n ≠ id := fun e => ha (e ▸ rfl)
    rw [step]
    split
    · exact Finset.mem_erase.mpr ⟨hne, hn⟩
    · exact hn
  case read =>
    rw [step]
    split <;> exact hn
  all_goals exact hn

/-- **A name stays** as long as it is not asked to be removed. -/
theorem mem_names_run {as : List Ask} (hn : n ∈ c.names) (has : .remove n ∉ as) :
    n ∈ (c.run as).2.names := by
  induction as generalizing c with
  | nil => exact hn
  | cons a as ih =>
    obtain ⟨ha, has⟩ := List.ne_and_not_mem_of_not_mem_cons has
    exact ih (mem_names_step hn (Ne.symm ha)) has

/-- Only a resource that is asked for is shown: no other echo starts this way. -/
theorem eq_read_of_step {a : Ask} (h : (c.step a).1 = .echo ("It's " ++ n)) : a = .read n := by
  have hfirst {text : String} (ht : text = "It's " ++ n) : text.toList.head? = some 'I' := by
    simp [ht]
  rcases a with _ | (_ | name) | id | id | _ | _ | _
  case add.some =>
    rw [step] at h
    split at h
    · cases h
    · have hhello := hfirst (Answer.echo.inj h)
      simp at hhello
  case remove =>
    rw [step] at h
    split at h <;> cases h
  case read =>
    rw [step] at h
    split at h
    · simpa [← String.toList_inj] using h
    · cases h
  case hello => exact absurd (hfirst (Answer.echo.inj h)) (by decide)
  all_goals cases h

end Machine

/-! ## What responses say -/

/-- The body of an echo. -/
def echoBody (text : String) : Bytes :=
  Text.Utf8.encode (Json.compact (.object [("echo", .text text)]))

/-- A response shows a resource: it has status 200, and its body says the name. -/
def Shows (r : Response) (n : String) : Prop :=
  r.status = .ok ∧ r.body = echoBody ("It's " ++ n)

theorem getLast?_encode {s : String} {c : Char} (hs : s.toList.getLast? = some c)
    (hc : c.toNat < 0x80) : (Text.Utf8.encode s).getLast? = some c.toNat.toUInt8 := by
  obtain ⟨r, hr⟩ := List.getLast?_eq_some_iff.mp hs
  have hbyte : Text.Utf8.encodeChars [c] = [c.toNat.toUInt8] := by
    simp [Text.Utf8.encodeChars, Text.Utf8.encodeChar, hc]
  rw [Text.Utf8.encode, hr, Json.encodeChars_append, hbyte, List.getLast?_concat]

theorem getLast?_echoBody (text : String) : (echoBody text).getLast? = some 0x7D := by
  rw [echoBody, Json.encode_compact]
  simp [List.getLast?_cons, List.getLast?_append]

/-- A page ends with a tag. -/
theorem getLast?_page : (Text.Utf8.encode (Introspection.page api)).getLast? = some 0x3E := by
  have hclosing : Introspection.closing.toList.getLast? = some '>' := by decide
  refine getLast?_encode (c := '>') ?_ (by decide)
  rw [Introspection.page, String.toList_append, List.getLast?_append, hclosing, Option.some_or]

theorem body_of_content? {a : Answer} {type : HeaderValue} {body : Bytes}
    (h : a.content? = some (type, body)) (blank : Response) : (a.response blank).body = body := by
  unfold Answer.response
  rw [h]
  rfl

theorem body_echo (text : String) (blank : Response) :
    ((Answer.echo text).response blank).body = echoBody text :=
  body_of_content? rfl blank

/-- An answer whose body is an echo is that echo. -/
theorem Answer.eq_echo_of_body {a : Answer} {blank : Response} {text : String}
    (hblank : blank.body = []) (h : (a.response blank).body = echoBody text) : a = .echo text := by
  have hlast := congrArg List.getLast? h
  rw [getLast?_echoBody] at hlast
  cases a with
  | bare s =>
    have hbody : ((Answer.bare s).response blank).body = blank.body := rfl
    rw [hbody, hblank] at hlast
    cases hlast
  | echo t =>
    rw [body_echo, echoBody, echoBody] at h
    rw [Json.compact_record_injective h]
  | page =>
    rw [body_of_content? rfl, getLast?_page] at hlast
    exact absurd hlast (by decide)

/-! ## Resources -/

variable {s : Server State} {state : State}

/-- Some request shows a resource. -/
def Readable (s : Server State) (state : State) (n : String) : Prop :=
  ∃ req, req.method = .get ∧ Shows (s.process state req).response n

/-- Some request removes a resource, and is answered by 204. -/
def Removable (s : Server State) (state : State) (n : String) : Prop :=
  ∃ req, req.method = .delete ∧ (s.process state req).response.status = .noContent ∧
    n ∉ (s.process state req).state.names

theorem mem_machine_names {state : State} : n ∈ state.machine.names ↔ n ∈ state.names :=
  List.mem_toFinset

/-- **A resource can be shown** iff its name is a segment. -/
theorem readable_iff (hs : Serves s base)
    (hbase : Text.trim Target.isSlash base.toList = base.toList) (hn : n ∈ state.names) :
    Readable s state n ↔ IsSegment n := by
  constructor
  · rintro ⟨req, -, -, hbody⟩
    have hresponse := (process_simulates hs state req).response
    simp only [Reply.outcome] at hresponse
    rw [hresponse] at hbody
    have hask := Machine.eq_read_of_step (Answer.eq_echo_of_body rfl hbody)
    exact Ask.isSegment_of_ofRequest (.inr hask)
  · intro hsegment
    let req : Request := { method := .get, target := resourceTarget base n }
    have hask : Ask.ofRequest base req = .read n := Ask.ofRequest_resource hbase hsegment rfl
    have hresponse := (process_simulates hs state req).response
    rw [hask, Machine.step, if_pos (mem_machine_names.mpr hn)] at hresponse
    refine ⟨req, rfl, ?_⟩
    simp only [Reply.outcome] at hresponse
    rw [hresponse]
    exact ⟨status_response _ _, body_echo _ _⟩

/-- **A resource can be removed** iff its name is a segment. -/
theorem removable_iff (hs : Serves s base)
    (hbase : Text.trim Target.isSlash base.toList = base.toList) (hn : n ∈ state.names) :
    Removable s state n ↔ IsSegment n := by
  have hmem := mem_machine_names.mpr hn
  constructor
  · rintro ⟨req, -, -, hgone⟩
    have hmachine := (process_simulates hs state req).machine
    simp only [Reply.outcome] at hmachine
    rw [← mem_machine_names, hmachine] at hgone
    have hask := Decidable.of_not_not (mt (Machine.mem_names_step hmem) hgone)
    exact Ask.isSegment_of_ofRequest (.inl hask)
  · intro hsegment
    let req : Request := { method := .delete, target := resourceTarget base n }
    have hask : Ask.ofRequest base req = .remove n := Ask.ofRequest_resource hbase hsegment rfl
    obtain ⟨-, hmachine, hresponse⟩ := process_simulates hs state req
    rw [hask, Machine.step, if_pos hmem] at hmachine hresponse
    simp only [Reply.outcome] at hmachine hresponse
    refine ⟨req, rfl, ?_, ?_⟩
    · rw [hresponse, status_response]
      rfl
    · rw [← mem_machine_names, hmachine]
      exact Finset.notMem_erase n _

/-- A name that is posted is added, or refused where it is there already. -/
theorem process_of_posts (hs : Serves s base) (hreq : Posts base n req) :
    let reply := s.process state req
    if n ∈ state.names then reply.response.status = .conflict
    else reply.response.status = .ok ∧ n ∈ reply.state.names := by
  obtain ⟨-, hmachine, hresponse⟩ := process_simulates hs state req
  simp only [Reply.outcome, hreq.ofRequest, Machine.step] at hmachine hresponse
  intro reply
  by_cases hn : n ∈ state.names
  · rw [if_pos (mem_machine_names.mpr hn)] at hresponse
    rw [if_pos hn, hresponse, status_response]
    rfl
  · rw [if_neg (mt mem_machine_names.mp hn)] at hmachine hresponse
    rw [if_neg hn, hresponse, status_response, ← mem_machine_names, hmachine]
    exact ⟨rfl, Finset.mem_insert_self n _⟩

/-! ## Runs -/

theorem processAll_append (s : Server State) (state : State) (reqs more : List Request) :
    let now := (s.processAll state reqs).2
    (s.processAll state (reqs ++ more)).2 = (now.1.processAll now.2 more).2 := by
  induction reqs generalizing s state with
  | nil => rfl
  | cons req reqs ih => exact ih _ _

theorem serves_processAll (hs : Serves s base) (state : State) (reqs : List Request) :
    Serves (s.processAll state reqs).2.1 base := by
  induction reqs generalizing s state with
  | nil => exact hs
  | cons req reqs ih => exact ih (serves_process hs state req) _

/-- **A resource whose name is no segment stays**, whatever is requested. -/
theorem mem_names_processAll (hs : Serves s base) (hn : n ∈ state.names)
    (hsegment : ¬ IsSegment n) (reqs : List Request) :
    n ∈ (s.processAll state reqs).2.2.names := by
  have hmachine := (simulates_processAll hs state reqs).2.1
  rw [← mem_machine_names, hmachine]
  refine Machine.mem_names_run (mem_machine_names.mpr hn) fun hmem => ?_
  obtain ⟨req, -, hask⟩ := List.mem_map.mp hmem
  exact hsegment (Ask.isSegment_of_ofRequest (.inl hask))

/-- **Only segments are addressed.** On a server below any base path, on which nothing but the
service is registered, whatever was requested: a resource can be shown, and can be removed, iff its
name is not empty and holds none of `/`, `?` and `#`. Every name can be posted, is added then with
status 200, and is refused with status 409 where it is there already. A resource with a name that
cannot be addressed stays, whatever is requested after that. -/
theorem addressed_iff_isSegment (base name : String) :
    ∃ s, (register (Server.new base name).1).1 = .ok s ∧
      let after (reqs : List Request) := (s.processAll {} reqs).2
      ∀ (reqs : List Request) (n : String),
        let now := after reqs
        (n ∈ now.2.names →
          (Readable now.1 now.2 n ↔ IsSegment n) ∧ (Removable now.1 now.2 n ↔ IsSegment n)) ∧
        (∃ req, Posts (Target.trimSlashes base) n req) ∧
        (∀ req, Posts (Target.trimSlashes base) n req →
          let reply := now.1.process now.2 req
          if n ∈ now.2.names then reply.response.status = .conflict
          else reply.response.status = .ok ∧ n ∈ reply.state.names) ∧
        (n ∈ now.2.names → ¬ IsSegment n →
          ∀ more, n ∈ (after (reqs ++ more)).2.names) := by
  obtain ⟨hnew, hbase, -⟩ := Server.new_spec base name
  obtain ⟨s, hok, hrep, hbase', -⟩ := register_spec hnew
  refine ⟨s, hok, ?_⟩
  intro after reqs n
  have htrim : Text.trim Target.isSlash (Target.trimSlashes base).toList
      = (Target.trimSlashes base).toList := by
    rw [Target.trimSlashes, Text.trimText, String.toList_ofList, Text.trim_trim]
  have hserves := serves_processAll ⟨hrep, hbase'.trans hbase⟩ {} reqs
  refine ⟨fun hn => ⟨readable_iff hserves htrim hn, removable_iff hserves htrim hn⟩,
    exists_posts htrim n, fun req hreq => process_of_posts hserves hreq, fun hn hsegment more => ?_⟩
  simp only [after, processAll_append]
  exact mem_names_processAll hserves hn hsegment more

/-- A name with a slash is added, and is there for good. -/
theorem addressed_iff_isSegment_slash :
    ∃ s, (register (Server.new "/svc/" "demo").1).1 = .ok s ∧
      ∃ req, Posts "svc" "a/b" req ∧
        let now := (s.processAll {} [req]).2
        "a/b" ∈ now.2.names ∧ ¬ Readable now.1 now.2 "a/b" ∧ ¬ Removable now.1 now.2 "a/b" ∧
          ∀ more, "a/b" ∈ (s.processAll {} (req :: more)).2.2.names := by
  obtain ⟨s, hok, hafter⟩ := addressed_iff_isSegment "/svc/" "demo"
  have htrim : Target.trimSlashes "/svc/" = "svc" := by decide
  obtain ⟨-, ⟨req, hreq⟩, hposts, -⟩ := hafter [] "a/b"
  have hadded := (hposts req hreq).2
  have hsegment : ¬ IsSegment "a/b" := by decide
  obtain ⟨hiff, -, -, hstays⟩ := hafter [req] "a/b"
  obtain ⟨hread, hremove⟩ := hiff hadded
  exact ⟨s, hok, req, htrim ▸ hreq, hadded, mt hread.mp hsegment, mt hremove.mp hsegment,
    hstays hadded hsegment⟩

end Routing.Demo
