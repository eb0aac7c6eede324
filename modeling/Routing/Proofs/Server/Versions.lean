import Routing.Proofs.Server.Answers
import Routing.Proofs.Store.Addressing

/-!
# Versions of an API

On a server on which nothing but APIs is registered, a target asks for version `n` if `api/v` and
the number `n` follow the base path, up to a boundary; the rest is the tail for the API. The last
API of that version that could be built answers, and a target that asks for no registered version
leads nowhere.

* `addresses_unique`: a target asks for one version only, so `v1` and `v10` are kept apart.
* `answer_of_addresses`, `answer_eq_none_of_unaddressed`: what a target finds.
* `process_registered`: where every request ends, and that other versions do not matter.
-/

namespace Routing.Server

variable {σ : Type}

/-- The server after an API was registered; as before if it could not be built. -/
def register (s : Server σ) (a : Api σ) : Server σ :=
  match (s.registerApi a).1 with
  | .ok s' => s'
  | .error _ => s

/-- The server after APIs were registered one after the other. -/
def registerAll (s : Server σ) (apis : List (Api σ)) : Server σ :=
  apis.foldl register s

/-- The last API of a version that could be built. -/
def lastBuilt (apis : List (Api σ)) (n : Nat) : Option (CompiledApi σ) :=
  apis.reverse.findSome? fun a => if a.version = n then a.build.toOption else none

/-- A target asks for a version: below the base path and at most one slash it starts with `api/v`
and the number, up to a boundary, and `tail` is what follows. -/
def Addresses (base target : String) (n : Nat) (tail : String) : Prop :=
  ∃ r, Store.below? base.toList target.toList = some r ∧
    Store.dropSlash r = ("api/v" ++ toString n).toList ++ tail.toList ∧
    Target.atBoundary tail.toList = true

/-- Where a request ends on a server with registered APIs: below the last API of the version that
its target asks for, or nowhere. -/
inductive Leads (base : String) (apis : List (Api σ)) (m : Method) (target : String) :
    Destination σ → Prop
  | api {n : Nat} {tail : String} {a : CompiledApi σ} {d : Destination σ} :
    Addresses base target n tail → lastBuilt apis n = some a → a.Leads m tail d →
    Leads base apis m target d
  | nowhere : (∀ n tail, Addresses base target n tail → lastBuilt apis n = none) →
    Leads base apis m target .nowhere

/-! ## Paths of versions -/

theorem toList_apiPath (n : Nat) : (apiPath n).toList = "api/v".toList ++ Nat.toDigits 10 n := by
  unfold apiPath
  rw [String.toList_append]
  congr 1
  exact Nat.toList_repr

theorem isDigit_toDigits (n : Nat) : ∀ c ∈ Nat.toDigits 10 n, c.isDigit = true := fun _ h =>
  Nat.isDigit_of_mem_toDigits (by decide) (by decide) h

/-- A number is read off a text up to a boundary. -/
theorem takeWhile_isDigit_append {ds t : List Char} (h : ∀ c ∈ ds, c.isDigit = true)
    (ht : Target.atBoundary t = true) : (ds ++ t).takeWhile Char.isDigit = ds := by
  rw [List.takeWhile_append_of_pos h]
  cases t with
  | nil => simp
  | cons c r =>
    have hc : c.isDigit = false := by
      simp only [Target.atBoundary, Target.endsSegment, Target.endsPath, Bool.or_eq_true,
        decide_eq_true_eq] at ht
      rcases ht with rfl | rfl | rfl <;> decide
    simp [hc]

theorem toDigits_injective {n k : Nat} (h : Nat.toDigits 10 n = Nat.toDigits 10 k) : n = k := by
  have hn := Text.Numeral.natural?_toDigits (le_max_left n k)
  have hk := Text.Numeral.natural?_toDigits (le_max_right n k)
  rw [h, hk] at hn
  exact (Option.some.inj hn).symm

/-- **Numbers are kept apart**: of two numbers in front of one text up to a boundary neither is the
start of the other. -/
theorem apiPath_append_inj {n k : Nat} {t u : List Char} (ht : Target.atBoundary t = true)
    (hu : Target.atBoundary u = true) (h : (apiPath n).toList ++ t = (apiPath k).toList ++ u) :
    n = k ∧ t = u := by
  rw [toList_apiPath, toList_apiPath, List.append_assoc, List.append_assoc,
    List.append_cancel_left_eq] at h
  have hdigits := congrArg (List.takeWhile Char.isDigit) h
  rw [takeWhile_isDigit_append (isDigit_toDigits n) ht,
    takeWhile_isDigit_append (isDigit_toDigits k) hu] at hdigits
  rw [hdigits, List.append_cancel_left_eq] at h
  exact ⟨toDigits_injective hdigits, h⟩

theorem apiPath_injective {n k : Nat} (h : apiPath n = apiPath k) : n = k :=
  (apiPath_append_inj (t := []) (u := []) rfl rfl (by rw [h])).1

/-- A target asks for one version only. -/
theorem addresses_unique {base target : String} {n k : Nat} {tail tail' : String}
    (h : Addresses base target n tail) (h' : Addresses base target k tail') :
    n = k ∧ tail = tail' := by
  obtain ⟨r, hr, hp, ht⟩ := h
  obtain ⟨r', hr', hp', ht'⟩ := h'
  rw [hr] at hr'
  obtain rfl := Option.some.inj hr'
  rw [hp] at hp'
  obtain ⟨rfl, htail⟩ := apiPath_append_inj ht ht' hp'
  exact ⟨rfl, String.toList_inj.mp htail⟩

theorem split_apiPath (n : Nat) :
    Text.split '/' (apiPath n).toList = ["api".toList, 'v' :: Nat.toDigits 10 n] := by
  have hpath : (apiPath n).toList = "api".toList ++ '/' :: 'v' :: Nat.toDigits 10 n := by
    rw [toList_apiPath]
    rfl
  have hmem : '/' ∉ 'v' :: Nat.toDigits 10 n := by
    rw [List.mem_cons, not_or]
    exact ⟨by decide, fun h => absurd (isDigit_toDigits n _ h) (by decide)⟩
  rw [hpath, Text.split_append_cons (by decide), Text.split_of_not_mem hmem]

theorem nil_not_mem_split_apiPath (n : Nat) : [] ∉ Text.split '/' (apiPath n).toList := by
  rw [split_apiPath]
  simp

theorem trimSlashes_apiPath (n : Nat) : Target.trimSlashes (apiPath n) = apiPath n := by
  have := Target.trimSlashes_ofList_of_split (nil_not_mem_split_apiPath n)
  rwa [String.ofList_toList] at this

theorem plain_apiPath (n : Nat) : Target.Plain (apiPath n).toList := by
  have hdigit : ∀ c, c.isDigit = false → c ∉ "api/v".toList → c ∉ (apiPath n).toList := by
    intro c hc hfront hmem
    rw [toList_apiPath, List.mem_append] at hmem
    rcases hmem with hmem | hmem
    · exact hfront hmem
    · rw [isDigit_toDigits n c hmem] at hc
      exact absurd hc (by simp)
  exact ⟨hdigit '?' (by decide) (by decide), hdigit '#' (by decide) (by decide)⟩

/-! ## What is registered -/

/-- What registering an API does to what is mounted. -/
def mountVersion (M : Store.Registry (Mount σ)) (a : Api σ) : Store.Registry (Mount σ) :=
  match a.build with
  | .ok c => M.insert (apiPath a.version, .any) (.api c)
  | .error _ => M

/-- What registering APIs leaves mounted. -/
def mounts (apis : List (Api σ)) : Store.Registry (Mount σ) :=
  apis.foldl mountVersion ∅

/-- **One registration**: the store holds what is mounted, and nothing else of the server
changes. -/
theorem register_spec {s : Server σ} {M : Store.Registry (Mount σ)} (hs : s.store.Represents M)
    (a : Api σ) :
    (s.register a).store.Represents (mountVersion M a) ∧ (s.register a).store.base = s.store.base ∧
      (s.register a).stats = s.stats ∧ (s.register a).signature = s.signature := by
  unfold register registerApi mountVersion
  cases a.build with
  | error e => exact ⟨hs, rfl, rfl, rfl⟩
  | ok c =>
    have hadd := Store.represents_add hs .any (apiPath a.version) (.api c)
    rw [trimSlashes_apiPath] at hadd
    exact ⟨hadd, rfl, rfl, rfl⟩

/-- **All registrations.** -/
theorem registerAll_spec {s : Server σ} {M : Store.Registry (Mount σ)}
    (hs : s.store.Represents M) (apis : List (Api σ)) :
    (registerAll s apis).store.Represents (apis.foldl mountVersion M) ∧
      (registerAll s apis).store.base = s.store.base ∧
      (registerAll s apis).stats = s.stats ∧ (registerAll s apis).signature = s.signature := by
  induction apis generalizing s M with
  | nil => exact ⟨hs, rfl, rfl, rfl⟩
  | cons a as ih =>
    obtain ⟨hstep, hbase, hstats, hsig⟩ := register_spec hs a
    obtain ⟨hall, hbase', hstats', hsig'⟩ := ih hstep
    exact ⟨hall, hbase'.trans hbase, hstats'.trans hstats, hsig'.trans hsig⟩

theorem lastBuilt_append (apis : List (Api σ)) (a : Api σ) (n : Nat) :
    lastBuilt (apis ++ [a]) n
      = (if a.version = n then a.build.toOption else none).or (lastBuilt apis n) := by
  unfold lastBuilt
  rw [List.reverse_append, List.reverse_singleton, List.singleton_append, List.findSome?_cons]
  cases if a.version = n then a.build.toOption else none <;> rfl

/-- Other versions do not matter for the last API of a version. -/
theorem lastBuilt_filter (apis : List (Api σ)) (n : Nat) :
    lastBuilt (apis.filter fun a => a.version = n) n = lastBuilt apis n := by
  induction apis using List.reverseRecOn with
  | nil => rfl
  | append_singleton as a ih =>
    rw [List.filter_append, lastBuilt_append]
    by_cases ha : a.version = n
    · rw [List.filter_cons_of_pos (by simpa using ha), List.filter_nil, lastBuilt_append, ih]
    · rw [List.filter_cons_of_neg (by simpa using ha), List.filter_nil, List.append_nil, ih,
        if_neg ha]
      rfl

/-- **At the path of a version, under all methods, is the last API of it.** -/
theorem lookup_mounts (apis : List (Api σ)) (n : Nat) :
    (mounts apis).lookup (apiPath n, .any) = (lastBuilt apis n).map Mount.api := by
  induction apis using List.reverseRecOn with
  | nil => rfl
  | append_singleton as a ih =>
    rw [lastBuilt_append]
    unfold mounts at ih ⊢
    rw [List.foldl_append, List.foldl_cons, List.foldl_nil, mountVersion]
    cases a.build with
    | error e => simpa [Except.toOption] using ih
    | ok c =>
      by_cases ha : a.version = n
      · rw [ha, Finmap.lookup_insert, if_pos rfl]
        rfl
      · have hne : (apiPath n, Verb.any) ≠ (apiPath a.version, Verb.any) := fun e =>
          ha (apiPath_injective (Prod.mk.inj e).1).symm
        rw [if_neg ha]
        simp only [Finmap.lookup_insert_of_ne _ hne]
        exact ih

/-- **Nothing else is mounted.** -/
theorem eq_of_mem_mounts {apis : List (Api σ)} {k : String × Verb} (h : k ∈ mounts apis) :
    ∃ n, k = (apiPath n, .any) := by
  induction apis using List.reverseRecOn with
  | nil => exact absurd h Finmap.notMem_empty
  | append_singleton as a ih =>
    unfold mounts at ih h
    rw [List.foldl_append, List.foldl_cons, List.foldl_nil, mountVersion] at h
    cases hb : a.build with
    | error e =>
      rw [hb] at h
      exact ih h
    | ok c =>
      rw [hb] at h
      rcases Finmap.mem_insert.mp h with rfl | h
      · exact ⟨a.version, rfl⟩
      · exact ih h

theorem pick_mounts (apis : List (Api σ)) (m : Method) (n : Nat) :
    (mounts apis).pick m (apiPath n) = (lastBuilt apis n).map Mount.api := by
  have hexact : (mounts apis).lookup (apiPath n, .exact m) = none := by
    rw [Finmap.lookup_eq_none]
    intro h
    obtain ⟨k, hk⟩ := eq_of_mem_mounts h
    exact absurd (Prod.mk.inj hk).2 (by simp)
  rw [Store.Registry.pick, hexact, lookup_mounts, Option.none_or]

theorem eq_apiPath_of_pick {apis : List (Api σ)} {m : Method} {path : String}
    (h : ((mounts apis).pick m path).isSome = true) : ∃ n, path = apiPath n := by
  obtain ⟨v, hv⟩ := Store.Registry.exists_mem_of_pick h
  obtain ⟨n, hn⟩ := eq_of_mem_mounts hv
  exact ⟨n, (Prod.mk.inj hn).1⟩

/-! ## What a target finds -/

theorem addresses_iff_tail? {base target tail : String} {n : Nat} :
    Addresses base target n tail ↔ Store.tail? base (apiPath n) target = some tail :=
  Store.tail?_eq_some_iff.symm

/-- **A target that asks for a registered version finds the last API of it**, with the tail. -/
theorem answer_of_addresses {base target tail : String} {n : Nat} {apis : List (Api σ)}
    {a : CompiledApi σ} (h : Addresses base target n tail) (ha : lastBuilt apis n = some a)
    (m : Method) : (mounts apis).answer base m target = some (tail, .api a) := by
  refine Store.Registry.answer_of_tail? (addresses_iff_tail?.mp h) (plain_apiPath n)
    (nil_not_mem_split_apiPath n) (by rw [pick_mounts, ha]; rfl) fun q t hq ht => ?_
  obtain ⟨k, rfl⟩ := eq_apiPath_of_pick hq
  rw [(addresses_unique (addresses_iff_tail?.mpr ht) h).1]

/-- **A target that asks for no registered version finds nothing.** -/
theorem answer_eq_none_of_unaddressed {base target : String} {apis : List (Api σ)}
    (h : ∀ n tail, Addresses base target n tail → lastBuilt apis n = none) (m : Method) :
    (mounts apis).answer base m target = none := by
  refine Store.Registry.answer_eq_none_of_tail? ?_ fun q hq => ?_
  · cases hpick : (mounts apis).pick m "" with
    | none => rfl
    | some x =>
      obtain ⟨n, hn⟩ := eq_apiPath_of_pick (by rw [hpick]; rfl)
      have hlist := congrArg String.toList hn
      rw [toList_apiPath] at hlist
      exact absurd hlist (by simp)
  · obtain ⟨n, rfl⟩ := eq_apiPath_of_pick hq
    cases ht : Store.tail? base (apiPath n) target with
    | none => rfl
    | some tail =>
      rw [pick_mounts, h n tail (addresses_iff_tail?.mpr ht)] at hq
      exact absurd hq (by simp)

/-! ## Where requests end -/

theorem exists_leads (base : String) (apis : List (Api σ)) (m : Method) (target : String) :
    ∃ d, Leads base apis m target d := by
  by_cases h : ∃ n tail a, Addresses base target n tail ∧ lastBuilt apis n = some a
  · obtain ⟨n, tail, a, haddr, ha⟩ := h
    obtain ⟨d, hd⟩ := a.exists_leads m tail
    exact ⟨d, .api haddr ha hd⟩
  · refine ⟨.nowhere, .nowhere fun n tail haddr => ?_⟩
    cases ha : lastBuilt apis n with
    | none => rfl
    | some a => exact absurd ⟨n, tail, a, haddr, ha⟩ h

/-- **A request ends where its target leads.** -/
theorem process_of_leads {s : Server σ} {apis : List (Api σ)}
    (hs : s.store.Represents (mounts apis)) {state : σ} {req : Request} {d : Destination σ}
    (hd : Leads s.store.base apis req.method req.target d) :
    (s.process state req).outcome = s.respond state req d := by
  cases hd with
  | api haddr ha hd =>
    refine process_of_lookup_eq_api ?_ hd
    rw [Store.lookup_eq_answer hs, answer_of_addresses haddr ha]
  | nowhere h =>
    refine process_of_lookup_eq_none ?_
    rw [Store.lookup_eq_answer hs, answer_eq_none_of_unaddressed h]

/-- What is answered does not depend on what else is mounted. -/
theorem respond_congr {s s' : Server σ} (hstats : s.stats = s'.stats)
    (hsig : s.signature = s'.signature) (state : σ) (req : Request) (d : Destination σ) :
    (s.respond state req d).1.stats = (s'.respond state req d).1.stats ∧
      (s.respond state req d).2 = (s'.respond state req d).2 := by
  have hblank : s.blankResponse req = s'.blankResponse req := by
    unfold blankResponse
    rw [hsig]
  cases d with
  | page a => simp only [respond, count, hstats, hblank, and_self]
  | endpoint route p =>
    have hreceived : s.received state req = s'.received state req := by
      unfold received
      rw [hblank]
    simp only [respond, hreceived]
    obtain ⟨o, x⟩ := route.endpoint req p (s'.received state req)
    cases o with
    | done => simp only [count, hstats, and_self]
    | failed e => simp only [count, hstats, and_self]
    | crashed => simp only [countException, hstats, and_self]
  | noRoute => simp only [respond, count, hstats, hblank, and_self]
  | nowhere => simp only [respond, countUnknown, hstats, hblank, and_self]

/-- Where a request ends depends on the registrations of the version that it asks for only. -/
theorem leads_congr {base target : String} {apis apis' : List (Api σ)} {m : Method}
    {d : Destination σ}
    (h : ∀ n tail, Addresses base target n tail → lastBuilt apis n = lastBuilt apis' n)
    (hd : Leads base apis m target d) : Leads base apis' m target d := by
  cases hd with
  | api haddr ha hd =>
    rw [h _ _ haddr] at ha
    exact .api haddr ha hd
  | nowhere hnone =>
    refine .nowhere fun n tail haddr => ?_
    rw [← h n tail haddr]
    exact hnone n tail haddr

/-- A new server: nothing is mounted, and nothing was counted. -/
theorem new_spec (base name : String) :
    (new base name : Server σ × _).1.store.Represents ∅ ∧
      (new base name : Server σ × _).1.store.base = Target.trimSlashes base ∧
      (new base name : Server σ × _).1.stats = {} := by
  unfold new
  split <;> exact ⟨Store.represents_empty _, rfl, rfl⟩

/-- A server on which APIs were registered. -/
theorem registerAll_new_spec (base name : String) (apis : List (Api σ)) :
    (registerAll (new base name).1 apis).store.Represents (mounts apis) ∧
      (registerAll (new base name).1 apis).store.base = Target.trimSlashes base ∧
      (registerAll (new base name).1 apis).signature
        = (new base name : Server σ × _).1.signature := by
  obtain ⟨hnew, hbase, -⟩ := new_spec base name
  obtain ⟨hs, hbase', -, hsig⟩ := registerAll_spec hnew apis
  exact ⟨hs, hbase'.trans hbase, hsig⟩

/-- **Versions of an API.** On a server below any base path, after any registrations of APIs and
whatever was counted before, every request ends somewhere: below the last API that was built for
the version that its target asks for, or nowhere. It is answered accordingly, and the answer
depends on the registrations of the version that is asked for only. -/
theorem process_registered (base name : String) (apis : List (Api σ)) (stats : Stats) (state : σ)
    (req : Request) :
    let s : Server σ := { registerAll (new base name).1 apis with stats }
    (∃ d, Leads (Target.trimSlashes base) apis req.method req.target d) ∧
    (∀ d, Leads (Target.trimSlashes base) apis req.method req.target d →
      (s.process state req).outcome = s.respond state req d) ∧
    ∀ apis' : List (Api σ),
      (∀ n tail, Addresses (Target.trimSlashes base) req.target n tail →
        (apis.filter fun a => a.version = n) = (apis'.filter fun a => a.version = n)) →
      let s' : Server σ := { registerAll (new base name).1 apis' with stats }
      (s.process state req).server.stats = (s'.process state req).server.stats ∧
        (s.process state req).state = (s'.process state req).state ∧
        (s.process state req).response = (s'.process state req).response := by
  have hends : ∀ (as : List (Api σ)) d,
      Leads (Target.trimSlashes base) as req.method req.target d →
      let s : Server σ := { registerAll (new base name).1 as with stats }
      (s.process state req).outcome = s.respond state req d := by
    intro as d hd s
    obtain ⟨hs, hbase, -⟩ := registerAll_new_spec base name as
    exact process_of_leads (s := s) hs (by rw [hbase]; exact hd)
  intro s
  refine ⟨exists_leads _ _ _ _, hends apis, fun apis' hfilter => ?_⟩
  intro s'
  obtain ⟨d, hd⟩ := exists_leads (Target.trimSlashes base) apis req.method req.target
  have hd' : Leads (Target.trimSlashes base) apis' req.method req.target d := by
    refine leads_congr (fun n tail haddr => ?_) hd
    rw [← lastBuilt_filter apis, hfilter n tail haddr, lastBuilt_filter]
  have hsig : s.signature = s'.signature :=
    (registerAll_new_spec base name apis).2.2.trans (registerAll_new_spec base name apis').2.2.symm
  obtain ⟨hstats, hrest⟩ := respond_congr (show s.stats = s'.stats from rfl) hsig state req d
  rw [← hends apis d hd, ← hends apis' d hd'] at hstats hrest
  exact ⟨hstats, congrArg Prod.fst hrest, congrArg Prod.snd hrest⟩

/-- A request for version 10 gets its page, and version 1 does not matter. -/
theorem process_registered_ten :
    let s : Server Unit := registerAll (new "/svc/").1 [{ version := 10 }, { version := 1 }]
    let s' : Server Unit := registerAll (new "/svc/").1 [{ version := 10 }]
    let req : Request := { method := .put, target := "//svc/api/v10/?v1" }
    Addresses "svc" req.target 10 "/?v1" ∧
      (s.process () req).outcome = s.respond () req (.page ⟨{ version := 10 }, ⟨.nil⟩⟩) ∧
      (s.process () req).response = (s'.process () req).response := by
  intro s s' req
  have haddr : Addresses "svc" req.target 10 "/?v1" :=
    ⟨"/api/v10/?v1".toList, by decide, by decide, by decide⟩
  have hbase : Target.trimSlashes "/svc/" = "svc" := by decide
  obtain ⟨-, hends, hother⟩ := process_registered "/svc/" defaultName
    ([{ version := 10 }, { version := 1 }] : List (Api Unit)) {} () req
  rw [hbase] at hends hother
  refine ⟨haddr, hends _ (.api haddr rfl (.page (isRoot_iff.mp (by decide)))), ?_⟩
  refine (hother [{ version := 10 }] fun n tail h => ?_).2.2
  obtain ⟨rfl, -⟩ := addresses_unique haddr h
  rfl

end Routing.Server
