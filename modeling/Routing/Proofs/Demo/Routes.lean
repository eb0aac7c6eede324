import Routing.Proofs.Demo.Machine
import Routing.Proofs.Server.Versions

/-!
# What requests to the demo service find

The service mounts its API for all methods and a handler for POST at `shutdown`, and nothing else. A
target asks for at most one of the two. Below the API the endpoint of a request is found by its
method and the segments of the tail.

* `lookup_compiled`: the endpoint for a method and the segments, and what is bound along the path.
* `lookup_of_tail?_api`, `lookup_of_tail?_shutdown`, `lookup_eq_none`: what a target finds.
-/

namespace Routing.Demo

/-! ## The routes of the API -/

/-- The templates of the API, in the order of search. -/
def templates : Forest Label Endings :=
  .node ⟨.literal, "resource"⟩ [(.post, 0)]
    (.node ⟨.string, "id"⟩ [(.delete, 1), (.get, 2)] .nil .nil)
    (.node ⟨.literal, "hello"⟩ [(.get, 3)] .nil .nil)

/-- The API with its matcher. -/
def compiled : CompiledApi State :=
  ⟨api, ⟨templates⟩⟩

theorem table_api : api.table
    = [(.post, "resource"), (.delete, "resource/<string:id>"), (.get, "resource/<string:id>"),
      (.get, "hello")] := rfl

theorem build_api : api.build = .ok compiled := by
  have hresource : Matcher.templateLabels "resource" = .ok [⟨.literal, "resource"⟩] := by decide
  have hid : Matcher.templateLabels "resource/<string:id>"
      = .ok [⟨.literal, "resource"⟩, ⟨.string, "id"⟩] := by decide
  have hhello : Matcher.templateLabels "hello" = .ok [⟨.literal, "hello"⟩] := by decide
  have hbuild : Matcher.build api.table = .ok ⟨templates⟩ := by
    rw [table_api]
    simp only [Matcher.build, Matcher.addRoutes, Matcher.addRoute, hresource, hid, hhello]
    rfl
  rw [Api.build, hbuild]
  rfl

/-- The search below a node that a segment goes through. -/
def searchBelow (m : Method) (es : Endings) (cs : Forest Label Endings) :
    List Segment → Option (Nat × Properties)
  | [] => (Endings.route? m es).map fun i => (i, Properties.empty)
  | s :: rest => Matcher.search m cs s rest

theorem search_nil (m : Method) (s : Segment) (rest : List Segment) :
    Matcher.search m .nil s rest = none := by
  cases rest <;> rfl

theorem search_literal (m : Method) (t : String) (es : Endings) (cs ss : Forest Label Endings)
    (s : Segment) (rest : List Segment) :
    Matcher.search m (.node ⟨.literal, t⟩ es cs ss) s rest
      = (if t = s.text then searchBelow m es cs rest else none).or
          (Matcher.search m ss s rest) := by
  conv_lhs => unfold Matcher.search
  simp only [Label.accepts, decide_eq_true_eq, Label.bind]
  by_cases ht : t = s.text
  · rw [if_pos ht, if_pos ht]
    cases rest with
    | nil => simp only [searchBelow]; cases Endings.route? m es <;> rfl
    | cons s' r => simp only [searchBelow]; cases Matcher.search m cs s' r <;> rfl
  · rw [if_neg ht, if_neg ht]
    rfl

theorem search_string (m : Method) (name : String) (es : Endings) (cs ss : Forest Label Endings)
    (s : Segment) (rest : List Segment) :
    Matcher.search m (.node ⟨.string, name⟩ es cs ss) s rest
      = ((searchBelow m es cs rest).map fun f => (f.1, f.2.insert name (.string s.text))).or
          (Matcher.search m ss s rest) := by
  conv_lhs => unfold Matcher.search
  simp only [Label.accepts, if_true, Label.bind]
  cases rest with
  | nil => simp only [searchBelow]; cases Endings.route? m es <;> rfl
  | cons s' r => simp only [searchBelow]; cases Matcher.search m cs s' r <;> rfl

/-- The search for a route of the API: the first segment decides where it goes on. -/
theorem search_templates (m : Method) (s : Segment) (rest : List Segment) :
    Matcher.search m templates s rest
      = (if "resource" = s.text then searchBelow m [(.post, 0)]
            (.node ⟨.string, "id"⟩ [(.delete, 1), (.get, 2)] .nil .nil) rest
          else none).or
        (if "hello" = s.text then searchBelow m [(.get, 3)] .nil rest else none) := by
  rw [templates, search_literal, search_literal, search_nil, Option.or_none]

/-- What is bound along the path of a resource. -/
def bound (id : String) : Properties :=
  Properties.empty.insert "id" (.string id)

/-- The endpoint for what is asked for, and what is bound along its path. -/
def Ask.endpoint? : Ask → Option (Endpoint State × Properties)
  | .add _ => some (addResource, .empty)
  | .remove id => some (deleteResource, bound id)
  | .read id => some (getResource, bound id)
  | .hello => some (Demo.hello, .empty)
  | _ => none

/-- The endpoint of a route that the matcher has found, and what is bound along its path. -/
def endpointAt? (found : Option (Nat × Properties)) : Option (Endpoint State × Properties) :=
  found.bind fun f => api.routes[f.1]?.map fun r => (r.endpoint, f.2)

theorem lookup_compiled_eq (m : Method) (tail : String) :
    (compiled.lookup m tail).map (fun f => (f.1.endpoint, f.2))
      = endpointAt? ((⟨templates⟩ : Matcher).lookup m tail) := by
  unfold CompiledApi.lookup endpointAt?
  have hmatcher : compiled.matcher = ⟨templates⟩ := rfl
  have happ : compiled.api = api := rfl
  rw [hmatcher, happ]
  cases (⟨templates⟩ : Matcher).lookup m tail with
  | none => rfl
  | some f => exact Option.map_map _ _ _

/-- Below the first segment of the resources. -/
theorem endpointAt?_resource (req : Request) (rest : List String) :
    endpointAt? (searchBelow req.method [(.post, 0)]
        (.node ⟨.string, "id"⟩ [(.delete, 1), (.get, 2)] .nil .nil) (rest.map Segment.mk))
      = (Ask.ofSegments req ("resource" :: rest)).endpoint? := by
  rcases rest with _ | ⟨id, _ | ⟨t, rest⟩⟩
  · simp only [List.map_nil, searchBelow, Endings.route?, Ask.ofSegments]
    split <;> rfl
  · simp only [List.map_cons, List.map_nil, searchBelow, search_string, search_nil,
      Endings.route?, Ask.ofSegments]
    split
    · rfl
    · split <;> rfl
  · simp only [List.map_cons, searchBelow, search_string, search_nil, Ask.ofSegments]
    rfl

/-- Below the first segment of the greeting. -/
theorem endpointAt?_hello (req : Request) (rest : List String) :
    endpointAt? (searchBelow req.method [(.get, 3)] .nil (rest.map Segment.mk))
      = (Ask.ofSegments req ("hello" :: rest)).endpoint? := by
  rcases rest with _ | ⟨t, rest⟩
  · simp only [List.map_nil, searchBelow, Endings.route?, Ask.ofSegments]
    split <;> rfl
  · simp only [List.map_cons, searchBelow, search_nil, Ask.ofSegments]
    rfl

theorem endpoint?_ofSegments (req : Request) (s : String) (rest : List String) :
    endpointAt? (Matcher.search req.method templates ⟨s⟩ (rest.map Segment.mk))
      = (Ask.ofSegments req (s :: rest)).endpoint? := by
  rw [search_templates]
  by_cases hr : "resource" = s
  · subst hr
    have hother : "hello" ≠ "resource" := by decide
    rw [if_pos rfl, if_neg hother, Option.or_none]
    exact endpointAt?_resource req rest
  · rw [if_neg hr, Option.none_or]
    by_cases hh : "hello" = s
    · subst hh
      rw [if_pos rfl]
      exact endpointAt?_hello req rest
    · rw [if_neg hh]
      unfold Ask.ofSegments
      split <;> simp_all [Ask.endpoint?, endpointAt?]

/-- **The endpoint of a request** below the API is that for what it asks for. -/
theorem lookup_compiled (req : Request) (tail : String) :
    (compiled.lookup req.method tail).map (fun f => (f.1.endpoint, f.2))
      = (Ask.ofSegments req (Target.segments tail)).endpoint? := by
  rw [lookup_compiled_eq, Matcher.lookup]
  cases Target.segments tail with
  | nil => rfl
  | cons s rest => exact endpoint?_ofSegments req s rest

/-! ## What is mounted -/

/-- What the service mounts. -/
def mounts : Store.Registry (Mount State) :=
  Finmap.insert ("api/v1", .any) (.api compiled)
    (Finmap.insert ("shutdown", .exact .post) (.handler shutdown) ∅)

theorem lookup_mounts (path : String) (v : Verb) :
    mounts.lookup (path, v)
      = if (path, v) = ("api/v1", .any) then some (.api compiled)
        else if (path, v) = ("shutdown", .exact .post) then some (.handler shutdown)
        else none := by
  unfold mounts
  by_cases ha : (path, v) = ("api/v1", .any)
  · rw [if_pos ha, ha, Finmap.lookup_insert]
  · rw [if_neg ha, Finmap.lookup_insert_of_ne _ ha]
    by_cases hs : (path, v) = ("shutdown", .exact .post)
    · rw [if_pos hs, hs, Finmap.lookup_insert]
    · rw [if_neg hs, Finmap.lookup_insert_of_ne _ hs, Finmap.lookup_empty]

/-- What is mounted at a path for a method. -/
theorem pick_mounts (m : Method) (path : String) :
    mounts.pick m path
      = if path = "api/v1" then some (.api compiled)
        else if path = "shutdown" ∧ m = .post then some (.handler shutdown)
        else none := by
  unfold Store.Registry.pick
  rw [lookup_mounts, lookup_mounts]
  by_cases ha : path = "api/v1"
  · simp [ha]
  · simp [ha]

theorem eq_of_pick_mounts {m : Method} {path : String} (h : (mounts.pick m path).isSome = true) :
    path = "api/v1" ∨ (path = "shutdown" ∧ m = .post) := by
  rw [pick_mounts] at h
  by_contra hnot
  rw [not_or] at hnot
  rw [if_neg hnot.1, if_neg hnot.2] at h
  exact absurd h (by simp)

/-- Registering the service mounts the API and the handler, and changes nothing else. -/
theorem register_spec {s : Server State} (hs : s.store.Represents ∅) :
    ∃ s', (register s).1 = .ok s' ∧ s'.store.Represents mounts ∧ s'.store.base = s.store.base ∧
      s'.stats = s.stats ∧ s'.signature = s.signature := by
  have hshutdown := Store.represents_add hs (.exact .post) "shutdown" (.handler shutdown)
  have hmounts := Store.represents_add hshutdown .any "api/v1" (.api compiled)
  have htrim : Target.trimSlashes "shutdown" = "shutdown" := by decide
  have htrim' : Target.trimSlashes "api/v1" = "api/v1" := by decide
  rw [htrim, htrim'] at hmounts
  have hok : (register s).1 = .ok (((s.mount (.exact .post) "shutdown" (.handler shutdown)).1.mount
      .any "api/v1" (.api compiled)).1) := by
    unfold register Server.registerApi
    rw [build_api]
    rfl
  exact ⟨_, hok, hmounts, rfl, rfl, rfl⟩

/-! ## What a target finds -/

variable {s : Server State} {target tail : String}

/-- A target that asks for the API does not ask for the end of the service. -/
theorem tail?_shutdown_of_tail?_api {base : String}
    (h : Store.tail? base "api/v1" target = some tail) :
    Store.tail? base "shutdown" target = none := by
  cases hs : Store.tail? base "shutdown" target with
  | none => rfl
  | some t =>
    obtain ⟨r, hr, hp, -⟩ := Store.tail?_eq_some_iff.mp h
    obtain ⟨r', hr', hp', -⟩ := Store.tail?_eq_some_iff.mp hs
    rw [hr] at hr'
    obtain rfl := Option.some.inj hr'
    rw [hp] at hp'
    have hfirst : some 'a' = some 's' := congrArg List.head? hp'
    exact absurd hfirst (by decide)

/-- **A target that asks for the API finds it.** -/
theorem lookup_of_tail?_api (hs : s.store.Represents mounts) (m : Method)
    (h : Store.tail? s.store.base "api/v1" target = some tail) :
    s.store.lookup m target = some (tail, .api compiled) := by
  rw [Store.lookup_eq_answer hs]
  refine Store.Registry.answer_of_tail? h (by decide) (by decide) (by rw [pick_mounts]; rfl)
    fun q t hq ht => ?_
  rcases eq_of_pick_mounts hq with rfl | ⟨rfl, -⟩
  · rfl
  · rw [tail?_shutdown_of_tail?_api h] at ht
    exact absurd ht (by simp)

/-- **A target of POST that asks for the end of the service finds its handler.** -/
theorem lookup_of_tail?_shutdown (hs : s.store.Represents mounts)
    (h : Store.tail? s.store.base "shutdown" target = some tail) :
    s.store.lookup .post target = some (tail, .handler shutdown) := by
  rw [Store.lookup_eq_answer hs]
  refine Store.Registry.answer_of_tail? h (by decide) (by decide) (by rw [pick_mounts]; rfl)
    fun q t hq ht => ?_
  rcases eq_of_pick_mounts hq with rfl | ⟨rfl, -⟩
  · rw [tail?_shutdown_of_tail?_api ht] at h
    exact absurd h (by simp)
  · rfl

/-- **Another target finds nothing.** -/
theorem lookup_eq_none (hs : s.store.Represents mounts) {m : Method}
    (hapi : Store.tail? s.store.base "api/v1" target = none)
    (hshutdown : m = .post → Store.tail? s.store.base "shutdown" target = none) :
    s.store.lookup m target = none := by
  rw [Store.lookup_eq_answer hs]
  refine Store.Registry.answer_eq_none_of_tail? (by rw [pick_mounts]; rfl) fun q hq => ?_
  rcases eq_of_pick_mounts hq with rfl | ⟨rfl, hpost⟩
  · exact hapi
  · exact hshutdown hpost

end Routing.Demo
