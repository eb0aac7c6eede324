import Routing.Proofs.Server.Versions
import Routing.Proofs.Store.Suffix

/-!
# Routing ignores queries and fragments

What is mounted on a server is changed by mounting, by taking away and by registering APIs, and all
of this updates its store. Two targets with one path lead to the same handler, and to the same
endpoint of an API, whatever follows the path. The exception is a path of which nothing but a slash
is left below the base path: without a suffix it leads nowhere, and with one to what is mounted at
the empty path.

* `store_changed`: changes of a server are updates of its store.
* `CompiledApi.Leads.append`: an API leads the tails of one path to one place.
* `lookup_append_suffix`: where two targets with one path lead.
-/

namespace Routing

variable {σ : Type}

namespace Server

/-! ## Changes -/

/-- A change to what is mounted on a server. -/
inductive Change (σ : Type) where
  /-- Mounts a handler or an API at a path. -/
  | mount (v : Verb) (path : String) (m : Mount σ)
  /-- Takes away what is mounted at a path. -/
  | unroute (v : Verb) (path : String)
  /-- Registers a version of an API. -/
  | register (a : Api σ)

/-- The server after a change. -/
def change (s : Server σ) : Change σ → Server σ
  | .mount v path m => (s.mount v path m).1
  | .unroute v path => (s.unroute v path).2.1
  | .register a => s.register a

/-- A new server after changes. -/
def changed (base name : String) (changes : List (Change σ)) : Server σ :=
  changes.foldl change (new base name).1

/-- The updates of the store that make up a change: none if an API cannot be built. -/
def Change.updates : Change σ → List (Store.Op (Mount σ))
  | .mount v path m => [.add v path m]
  | .unroute v path => [.remove v path]
  | .register a =>
    match a.build with
    | .ok c => [.add .any (apiPath a.version) (.api c)]
    | .error _ => []

theorem store_unroute (s : Server σ) (v : Verb) (path : String) :
    (s.unroute v path).2.1.store = s.store.apply (.remove v path) := by
  unfold unroute Store.apply
  split
  next h => exact (congrArg Prod.snd h).symm
  next h => exact (congrArg Prod.snd h).symm

theorem store_register (s : Server σ) (a : Api σ) :
    (s.register a).store = (Change.register a).updates.foldl Store.apply s.store := by
  simp only [register, registerApi, Change.updates]
  cases a.build <;> rfl

/-- **One change** updates the store. -/
theorem store_change (s : Server σ) (c : Change σ) :
    (s.change c).store = c.updates.foldl Store.apply s.store := by
  cases c with
  | mount v path m => rfl
  | unroute v path => exact store_unroute s v path
  | register a => exact store_register s a

theorem store_new (base name : String) :
    (new base name : Server σ × _).1.store = Store.withBase base := by
  unfold new
  split <;> rfl

/-- **Changes of a server are updates of its store.** -/
theorem store_changed (base name : String) (changes : List (Change σ)) :
    (changed base name changes).store = Store.run base (changes.flatMap Change.updates) := by
  have hfoldl : ∀ s : Server σ, (changes.foldl change s).store
      = (changes.flatMap Change.updates).foldl Store.apply s.store := by
    induction changes with
    | nil => exact fun s => rfl
    | cons c cs ih =>
      intro s
      rw [List.foldl_cons, ih, store_change, List.flatMap_cons, List.foldl_append]
  rw [changed, hfoldl, store_new]
  rfl

end Server

/-! ## Tails of one path -/

theorem CompiledApi.lookup_append (a : CompiledApi σ) (m : Method) (t : String) {q : String}
    (hq : Target.IsSuffix q.toList) : a.lookup m (t ++ q) = a.lookup m t := by
  unfold lookup Matcher.lookup
  rw [Target.segments_append_suffix t hq]

theorem onlySlashes_append (t : String) {q : String} (hq : Target.IsSuffix q.toList) :
    OnlySlashes (t ++ q) ↔ OnlySlashes t := by
  rw [← Server.segments_eq_nil_iff, Target.segments_append_suffix t hq, Server.segments_eq_nil_iff]

/-- **An API leads the tails of one path to one place.** -/
theorem CompiledApi.Leads.append {a : CompiledApi σ} {m : Method} {t q : String}
    {d : Destination σ} (hq : Target.IsSuffix q.toList) (h : a.Leads m t d) :
    a.Leads m (t ++ q) d := by
  cases h with
  | page hroot => exact .page ((onlySlashes_append t hq).mpr hroot)
  | endpoint hroot hl =>
    exact .endpoint (mt (onlySlashes_append t hq).mp hroot) ((a.lookup_append m t hq).trans hl)
  | noRoute hroot hl =>
    exact .noRoute (mt (onlySlashes_append t hq).mp hroot) ((a.lookup_append m t hq).trans hl)

/-! ## Targets of one path -/

namespace Server

variable {base name : String} {changes : List (Change σ)} {m : Method} {p : String}

/-- What changes leave mounted. -/
def Change.registry (changes : List (Change σ)) : Store.Registry (Mount σ) :=
  Store.Registry.run (changes.flatMap Change.updates)

theorem represents_changed (base name : String) (changes : List (Change σ)) :
    (changed base name changes).store.Represents (Change.registry changes) := by
  rw [store_changed]
  exact Store.represents_run base _

/-- Of a target nothing but a slash is left below the base path, and it has no suffix. -/
def Ends (base p q : String) : Prop :=
  Store.Bare (Target.trimSlashes base) p ∧ q = ""

instance (base p q : String) : Decidable (Ends base p q) :=
  inferInstanceAs (Decidable (_ ∧ _))

/-- **What a server finds for a path with a suffix** does not depend on the suffix. -/
theorem lookup_append (hbase : Target.Plain base.toList) {q : String}
    (hq : Target.IsSuffix q.toList) :
    (changed base name changes).store.lookup m (p ++ q) = if Ends base p q then none else
      ((Change.registry changes).route (Target.trimSlashes base) m p).map
        fun f => (f.1 ++ q, f.2) := by
  have hstore : (changed base name changes).store.base = Target.trimSlashes base := by
    rw [store_changed, Store.base_run]
  rw [Store.lookup_eq_answer (represents_changed base name changes), hstore,
    Store.Registry.answer_append hbase.trimSlashes hq]
  rfl

/-- A target of which nothing is left below the base path leads to the empty path only. -/
theorem get?_of_lookup_bare (hbase : Target.Plain base.toList) {q : String}
    (hq : Target.IsSuffix q.toList) (hbare : Store.Bare (Target.trimSlashes base) p)
    {tail : String} {mount : Mount σ}
    (hl : (changed base name changes).store.lookup m (p ++ q) = some (tail, mount)) :
    (changed base name changes).store.get? (.exact m) "" = some mount ∨
      (changed base name changes).store.get? .any "" = some mount := by
  have hrun := represents_changed base name changes
  obtain ⟨t, ht⟩ := Store.Registry.route_of_bare (M := Change.registry changes) (m := m) hbare
  rw [lookup_append hbase hq, ht, Option.map_map, Option.ite_none_left_eq_some,
    Option.map_eq_some_iff] at hl
  obtain ⟨-, g, hg, hfound⟩ := hl
  obtain rfl := (Prod.mk.inj hfound).2
  rw [hrun.get?_eq, hrun.get?_eq]
  exact (Option.or_eq_some_iff.mp hg).imp id And.right

/-- A path that leads to an API leads to one place of it, with every suffix. -/
theorem leads_of_route (name : String) (hbase : Target.Plain base.toList) {t : String}
    {a : CompiledApi σ}
    (hr : (Change.registry changes).route (Target.trimSlashes base) m p = some (t, .api a)) :
    ∃ d, ∀ q, Target.IsSuffix q.toList → ¬ Ends base p q → a.Leads m (t ++ q) d ∧
      ∀ state req, req.method = m → req.target = p ++ q →
        ((changed base name changes).process state req).outcome
          = (changed base name changes).respond state req d := by
  obtain ⟨d, hd⟩ := a.exists_leads m t
  refine ⟨d, fun q hq hends => ⟨hd.append hq, fun state req hm ht => ?_⟩⟩
  have hl : (changed base name changes).store.lookup req.method req.target
      = some (t ++ q, .api a) := by
    rw [hm, ht, lookup_append hbase hq, if_neg hends, hr, Option.map_some]
  exact process_of_lookup_eq_api hl (hm ▸ hd.append hq)

/-- **Routing ignores queries and fragments.** After any changes to a server whose base path has
neither `?` nor `#`, let two targets consist of one path with a suffix each. Both lead nowhere, or
both lead to the same handler, with tails that differ in the suffix only; and if it is an API, both
are answered by its page, by the same endpoint with the same properties, or by the API for lack of a
route. The exception is a path of which nothing but a slash is left below the base path, with one
suffix empty: then that target leads nowhere, and the other one to what is mounted at the empty path
if it leads anywhere. -/
theorem lookup_append_suffix (base name : String) (changes : List (Change σ)) (m : Method)
    (p q₁ q₂ : String) (hbase : Target.Plain base.toList) (h₁ : Target.IsSuffix q₁.toList)
    (h₂ : Target.IsSuffix q₂.toList) :
    let s := changed base name changes
    let exceptional := Store.Bare (Target.trimSlashes base) p ∧ (q₁ = "" ↔ q₂ ≠ "")
    (¬ exceptional →
        (s.store.lookup m (p ++ q₁) = none ∧ s.store.lookup m (p ++ q₂) = none) ∨
        ∃ t mount, s.store.lookup m (p ++ q₁) = some (t ++ q₁, mount) ∧
          s.store.lookup m (p ++ q₂) = some (t ++ q₂, mount) ∧
          ∀ a, mount = .api a → ∃ d, ∀ q, q = q₁ ∨ q = q₂ → a.Leads m (t ++ q) d ∧
            ∀ state req, req.method = m → req.target = p ++ q →
              (s.process state req).outcome = s.respond state req d) ∧
      (exceptional → ∀ q, q = q₁ ∨ q = q₂ →
        (q = "" → s.store.lookup m (p ++ q) = none) ∧
        ∀ tail mount, s.store.lookup m (p ++ q) = some (tail, mount) →
          s.store.get? (.exact m) "" = some mount ∨ s.store.get? .any "" = some mount) := by
  intro s exceptional
  have hsuffix : ∀ q, q = q₁ ∨ q = q₂ → Target.IsSuffix q.toList := by
    rintro q (rfl | rfl)
    · exact h₁
    · exact h₂
  have hlookup : ∀ q, q = q₁ ∨ q = q₂ → s.store.lookup m (p ++ q) = if Ends base p q then none else
      ((Change.registry changes).route (Target.trimSlashes base) m p).map
        fun f => (f.1 ++ q, f.2) := fun q hq => lookup_append hbase (hsuffix q hq)
  refine ⟨fun hordinary => ?_, fun hexc q hq => ⟨fun he => ?_, fun tail mount hl => ?_⟩⟩
  · -- without the exception both targets end at the base path, or neither does
    have hends : Ends base p q₂ ↔ Ends base p q₁ := by
      refine and_congr_right fun hbare => ?_
      have hboth : ¬ (q₁ = "" ↔ q₂ ≠ "") := fun h => hordinary ⟨hbare, h⟩
      tauto
    rw [hlookup q₁ (Or.inl rfl), hlookup q₂ (Or.inr rfl)]
    by_cases hend : Ends base p q₁
    · rw [if_pos hend, if_pos (hends.mpr hend)]
      exact Or.inl ⟨rfl, rfl⟩
    · have hend' := mt hends.mp hend
      rw [if_neg hend, if_neg hend']
      cases hr : (Change.registry changes).route (Target.trimSlashes base) m p with
      | none => exact Or.inl ⟨rfl, rfl⟩
      | some found =>
        obtain ⟨t, mount⟩ := found
        refine Or.inr ⟨t, mount, rfl, rfl, ?_⟩
        rintro a rfl
        obtain ⟨d, hd⟩ := leads_of_route name hbase hr
        refine ⟨d, fun q hq => hd q (hsuffix q hq) ?_⟩
        rcases hq with rfl | rfl
        · exact hend
        · exact hend'
  · rw [hlookup q hq, if_pos ⟨hexc.1, he⟩]
  · exact get?_of_lookup_bare hbase (hsuffix q hq) hexc.1 hl

/-- A handler at the empty path, and an API at a path at which a handler comes and goes. -/
def layered : List (Change Unit) :=
  [.mount .any "" (.handler fun _ _ x => (.done, x)),
    .mount (.exact .get) "api/v1" (.handler fun _ _ x => (.done, x)),
    .register { routes := [Route.new .get "a/<int:n>" "" "" fun _ _ x => (.done, x)] },
    .unroute (.exact .get) "/api/v1/"]

/-- Slashes of a query do not lead on, and the base path itself leads nowhere without a query. -/
theorem lookup_append_suffix_layered :
    let s := changed "/svc/" "name" layered
    let p := "//svc/api/v1/a/07"
    Target.Plain "/svc/".toList ∧
      (Target.IsSuffix "?x=/y#z".toList ∧ Target.IsSuffix "#".toList ∧
        ¬ (Store.Bare (Target.trimSlashes "/svc/") p ∧ ("?x=/y#z" = "" ↔ "#" ≠ "")) ∧
        ∃ t a d, s.store.lookup .get (p ++ "?x=/y#z") = some (t ++ "?x=/y#z", .api a) ∧
          s.store.lookup .get (p ++ "#") = some (t ++ "#", .api a) ∧
          a.Leads .get (t ++ "?x=/y#z") d ∧ a.Leads .get (t ++ "#") d) ∧
      (Target.IsSuffix "".toList ∧
        (Store.Bare (Target.trimSlashes "/svc/") "/svc/" ∧ ("#" = "" ↔ "" ≠ "")) ∧
        s.store.lookup .get ("/svc/" ++ "") = none) := by
  intro s p
  have hbase : Target.Plain "/svc/".toList := by decide
  have h₁ : Target.IsSuffix "?x=/y#z".toList := by decide
  have h₂ : Target.IsSuffix "#".toList := by decide
  have h₃ : Target.IsSuffix "".toList := by decide
  have hordinary : ¬ (Store.Bare (Target.trimSlashes "/svc/") p ∧
      ("?x=/y#z" = "" ↔ "#" ≠ "")) := by decide
  have hexc : Store.Bare (Target.trimSlashes "/svc/") "/svc/" ∧ ("#" = "" ↔ "" ≠ "") := by decide
  have htarget : p ++ "#" = "//svc/api/v1/a/07#" := by decide
  obtain ⟨a, ha⟩ : ∃ a, (changed "/svc/" "name" layered).store.lookup .get "//svc/api/v1/a/07#"
      = some ("/a/07#", .api a) := ⟨_, rfl⟩
  rw [← htarget] at ha
  refine ⟨hbase, ⟨h₁, h₂, hordinary, ?_⟩, h₃, hexc, ?_⟩
  · rcases (lookup_append_suffix "/svc/" "name" layered .get p _ _ hbase h₁ h₂).1 hordinary
      with ⟨-, hnone⟩ | ⟨t, mount, hl₁, hl₂, hleads⟩
    · exact absurd (ha.symm.trans hnone) (by simp)
    · obtain rfl := (Prod.mk.inj (Option.some.inj (hl₂.symm.trans ha))).2
      obtain ⟨d, hd⟩ := hleads a rfl
      exact ⟨t, a, d, hl₁, hl₂, (hd _ (Or.inl rfl)).1, (hd _ (Or.inr rfl)).1⟩
  · exact ((lookup_append_suffix "/svc/" "name" layered .get "/svc/" "#" "" hbase h₂ h₃).2 hexc ""
      (Or.inr rfl)).1 rfl

end Server

end Routing
