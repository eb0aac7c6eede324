import Mathlib.Data.Finset.Preimage
import Mathlib.Data.Fintype.EquivFin
import Routing.Proofs.Store.Precedence

/-!
# Registrations that no request reaches

A handler may be registered at any path, but the search goes along the segments of a target, and
these are neither empty nor do they hold `?` or `#`. So a path with other segments is in front of no
target, and what is registered there is never found, by whatever method. Everything else is found:
below the base path a target that is the path itself has no longer path in front of it, a target
that is nothing but a `?` has none at all, and of the methods there are always some without a
registration of their own.

* `places_below`, `places_mark`: targets at which a path comes first.
* `exists_picks`: every registration is the one for some method.
* `exists_source_iff`: which registrations answer some request.
* `lookup_reaches_iff`: the same for what is registered after any updates.
-/

namespace Routing

/-! ## Methods -/

/-- A method whose name has `n + 1` letters. -/
def Method.letters (n : Nat) : Method :=
  ⟨String.ofList (List.replicate (n + 1) 'A'), by
    rw [String.toList_ofList]
    simp [isMethodName, isMethodChar]⟩

theorem Method.letters_injective : Function.Injective Method.letters := by
  intro n k h
  have hlength := congrArg (fun m : Method => m.name.length) h
  simpa [Method.letters] using hlength

instance : Infinite Method :=
  Infinite.of_injective _ Method.letters_injective

namespace Store

variable {H : Type}

/-- A path that targets can ask for: the empty path, or one of which no segment is empty or holds
`?` or `#`. -/
def Addressable (path : String) : Prop :=
  path = "" ∨ ∀ s ∈ Text.split '/' path.toList, s ≠ [] ∧ Target.Plain s

instance (path : String) : Decidable (Addressable path) :=
  inferInstanceAs (Decidable (_ ∨ _))

/-- A text is plain if its segments are. -/
theorem plain_iff_split {c : List Char} :
    Target.Plain c ↔ ∀ s ∈ Text.split '/' c, Target.Plain s := by
  constructor
  · intro hc s hs
    have hsub : ∀ x ∈ s, x ∈ c := fun x hx => Text.join_split '/' c ▸ Text.mem_join_of_mem hs hx
    exact ⟨fun e => hc.1 (hsub _ e), fun e => hc.2 (hsub _ e)⟩
  · intro hall
    have hpart : ∀ x ∈ c, x = '/' ∨ ∃ s ∈ Text.split '/' c, x ∈ s := fun x hx =>
      Text.eq_or_mem_of_mem_join (by rwa [Text.join_split])
    refine ⟨fun hc => ?_, fun hc => ?_⟩
    · rcases hpart _ hc with heq | ⟨s, hs, hc⟩
      · exact absurd heq (by decide)
      · exact (hall s hs).1 hc
    · rcases hpart _ hc with heq | ⟨s, hs, hc⟩
      · exact absurd heq (by decide)
      · exact (hall s hs).2 hc

theorem addressable_iff {path : String} :
    Addressable path
      ↔ path = "" ∨ (Target.Plain path.toList ∧ [] ∉ Text.split '/' path.toList) := by
  unfold Addressable
  rw [plain_iff_split]
  refine or_congr_right ⟨fun h => ⟨fun s hs => (h s hs).2, fun e => (h [] e).1 rfl⟩, ?_⟩
  rintro ⟨hplain, hne⟩ s hs
  exact ⟨fun e => hne (e ▸ hs), hplain s hs⟩

/-! ## Targets -/

/-- A path comes first where it is all that a target has below the base path. -/
theorem places_below {base path : String}
    (hbase : Text.trim Target.isSlash base.toList = base.toList)
    (hplain : Target.Plain path.toList) (hsegs : [] ∉ Text.split '/' path.toList) :
    ∃ after, places base (base ++ "/" ++ path) = (path, "") :: after := by
  have hbelow : below? base.toList (base ++ "/" ++ path).toList = some ('/' :: path.toList) := by
    rw [String.toList_append, String.toList_append, List.append_assoc]
    exact below?_append_self hbase rfl
  have hfront : Front path.toList path.toList :=
    ⟨by rw [List.drop_length]; rfl, hplain, hsegs⟩
  obtain ⟨as, bs, hsplit⟩ :=
    List.append_of_mem (mem_frontTexts.mpr ⟨List.prefix_rfl, hfront⟩)
  -- what comes before would be longer, and in front of the path all the same
  have has : as = [] := by
    refine List.eq_nil_iff_forall_not_mem.mpr fun a ha => ?_
    have hdesc := pairwise_frontTexts path.toList
    rw [hsplit] at hdesc
    have hlt := (List.pairwise_append.mp hdesc).2.2 a ha _ List.mem_cons_self
    have hle := (mem_frontTexts.mp (hsplit ▸ List.mem_append_left _ ha)).1.length_le
    omega
  rw [has, List.nil_append] at hsplit
  rw [places, fronts, hbelow, Option.elim_some, dropSlash, hsplit, List.map_cons, List.drop_length,
    String.ofList_toList]
  exact ⟨_, rfl⟩

/-- The empty path comes first where a query is all that a target has below the base path. -/
theorem places_mark {base : String} (hbase : Text.trim Target.isSlash base.toList = base.toList) :
    places base (base ++ "?") = [("", "?")] := by
  have hbelow : below? base.toList (base ++ "?").toList = some ['?'] := by
    rw [String.toList_append]
    exact below?_append_self hbase rfl
  have hnone : frontTexts (dropSlash ['?']) = [] := by decide
  rw [places, fronts, fallback, hbelow, Option.elim_some, Option.elim_some, hnone]
  rfl

/-- **A path that targets can ask for comes first at some target.** -/
theorem exists_places_cons {base path : String}
    (hbase : Text.trim Target.isSlash base.toList = base.toList) (hpath : Addressable path) :
    ∃ target tail after, places base target = (path, tail) :: after := by
  rcases addressable_iff.mp hpath with rfl | ⟨hplain, hsegs⟩
  · exact ⟨_, _, _, places_mark hbase⟩
  · exact ⟨_, _, places_below hbase hplain hsegs⟩

/-- **No other path is asked for by any target.** -/
theorem addressable_of_mem_places {base target : String} {p : String × String}
    (hp : p ∈ places base target) : Addressable p.1 := by
  unfold places fronts fallback at hp
  cases hr : below? base.toList target.toList with
  | none =>
    rw [hr] at hp
    exact absurd hp List.not_mem_nil
  | some r =>
    rw [hr, Option.elim_some, Option.elim_some] at hp
    rcases List.mem_append.mp hp with hp | hp
    · obtain ⟨c, hc, rfl⟩ := List.mem_map.mp hp
      have hfront := (mem_frontTexts.mp hc).2
      refine addressable_iff.mpr (Or.inr ?_)
      rw [String.toList_ofList]
      exact ⟨hfront.plain, hfront.segments⟩
    · split at hp
      · exact absurd hp List.not_mem_nil
      · rw [List.mem_singleton.mp hp]
        exact Or.inl rfl

namespace Registry

variable {M : Registry H} {base path : String} {v : Verb} {h : H}

/-! ## Requests -/

/-- Some method has no registration of its own at a path. -/
theorem exists_method_without (M : Registry H) (path : String) :
    ∃ m : Method, M.lookup (path, .exact m) = none := by
  have hinj : Function.Injective fun m : Method => (path, Verb.exact m) := fun m n e =>
    Verb.exact.inj (Prod.mk.inj e).2
  obtain ⟨m, hm⟩ := Infinite.exists_notMem_finset (M.keys.preimage _ hinj.injOn)
  refine ⟨m, Finmap.lookup_eq_none.mpr fun hmem => hm ?_⟩
  exact Finset.mem_preimage.mpr (Finmap.mem_keys.mpr hmem)

/-- **Every registration is picked for some method** at its path. -/
theorem exists_picks (hreg : M.lookup (path, v) = some h) : ∃ m, M.Picks m path v h := by
  cases v with
  | any =>
    obtain ⟨m, hm⟩ := M.exists_method_without path
    exact ⟨m, .any hm hreg⟩
  | exact m => exact ⟨m, .exact hreg⟩

/-- **A registration answers some request** iff targets can ask for its path. -/
theorem exists_source_iff (hbase : Text.trim Target.isSlash base.toList = base.toList)
    (hreg : M.lookup (path, v) = some h) :
    (∃ m target tail, M.Source base m target path v tail h) ↔ Addressable path := by
  constructor
  · rintro ⟨m, target, tail, ⟨before, after, hplaces, -⟩, -⟩
    have hmem : (path, tail) ∈ places base target := by
      rw [hplaces]
      exact List.mem_append_right _ List.mem_cons_self
    exact addressable_of_mem_places hmem
  · intro hpath
    obtain ⟨target, tail, after, hplaces⟩ := exists_places_cons hbase hpath
    obtain ⟨m, hm⟩ := exists_picks hreg
    exact ⟨m, target, tail, ⟨[], after, hplaces, nofun⟩, hm⟩

end Registry

/-! ## Registrations after a run -/

/-- A registration of a store answers some request iff targets can ask for its path, and it is
handed out when it is withdrawn in any case. -/
theorem reaches_of_get? (base : String) (ops : List (Op H)) {v : Verb} {path : String} {h : H}
    (hreg : (run base ops).get? v path = some h) :
    ((∃ m target tail, (run base ops).lookup m target = some (tail, h) ∧
        (Registry.run ops).Source (Target.trimSlashes base) m target (Target.trimSlashes path) v
          tail h) ↔ Addressable (Target.trimSlashes path)) ∧
      ((run base ops).remove v path).1 = some h := by
  have hbase : Text.trim Target.isSlash (Target.trimSlashes base).toList
      = (Target.trimSlashes base).toList := by
    rw [Target.trimSlashes, Text.trimText, String.toList_ofList, Text.trim_trim]
  refine ⟨?_, hreg⟩
  rw [(represents_run base ops).get?_eq] at hreg
  rw [← Registry.exists_source_iff hbase hreg]
  refine exists_congr fun m => exists_congr fun target => exists_congr fun tail => ?_
  exact and_iff_right_of_imp fun hs => lookup_run_eq_some_iff.mpr ⟨_, _, hs⟩

/-- **Which registrations requests reach.** After any updates below any base path, a registration
answers some request iff its path is empty or has neither empty segments nor `?` or `#` in a
segment. It is registered at any path without complaint, and handed out when it is withdrawn,
whether requests reach it or not. -/
theorem lookup_reaches_iff (base : String) (ops : List (Op H)) (v : Verb) (path : String) (h : H) :
    let s := run base ops
    let M := Registry.run ops
    let s' := s.add v path h
    let M' := M.apply (.add v path h)
    let b := Target.trimSlashes base
    let p := Target.trimSlashes path
    (s.get? v path = some h →
        ((∃ m target tail, s.lookup m target = some (tail, h) ∧ M.Source b m target p v tail h)
          ↔ Addressable p) ∧
        (s.remove v path).1 = some h) ∧
      ((∃ m target tail, s'.lookup m target = some (tail, h) ∧ M'.Source b m target p v tail h)
        ↔ Addressable p) ∧
      (s'.remove v path).1 = some h := by
  intro s M s' M' b p
  refine ⟨fun hreg => reaches_of_get? base ops hreg, ?_⟩
  have hstore : run base (ops ++ [.add v path h]) = s' := by
    rw [run, List.foldl_append]
    rfl
  have hregistry : Registry.run (ops ++ [.add v path h]) = M' := by
    rw [Registry.run, List.foldl_append]
    rfl
  have hreg : (run base (ops ++ [.add v path h])).get? v path = some h := by
    rw [hstore]
    exact (get?_add _ _ _ _ _ _).trans (if_pos ⟨rfl, rfl⟩)
  have hreaches := reaches_of_get? base _ hreg
  rwa [hstore, hregistry] at hreaches

/-- What is registered for all methods is reached next to a handler for one of them; a `?` in the
middle of a path keeps every request away. -/
theorem lookup_reaches_iff_query :
    let ops : List (Op Nat) :=
      [.add .any "a/b" 1, .add (.exact .get) "/a/b/" 2, .add (.exact .get) "/a?x/b" 3]
    let s := run "/svc/" ops
    let M := Registry.run ops
    let b := Target.trimSlashes "/svc/"
    let p := Target.trimSlashes "a?x/b/"
    (s.get? .any "a/b" = some 1 ∧ ∃ m target tail, s.lookup m target = some (tail, 1)) ∧
      s.get? (.exact .get) "a?x/b/" = some 3 ∧
      (∀ m target tail, ¬ M.Source b m target p (.exact .get) tail 3) ∧
      (s.remove (.exact .get) "a?x/b/").1 = some 3 := by
  intro ops s M b p
  have hany : s.get? .any "a/b" = some 1 := by decide +kernel
  have hget : s.get? (.exact .get) "a?x/b/" = some 3 := by decide +kernel
  obtain ⟨hreach, -⟩ := (lookup_reaches_iff "/svc/" ops .any "a/b" 1).1 hany
  obtain ⟨hreach', hremove⟩ := (lookup_reaches_iff "/svc/" ops (.exact .get) "a?x/b/" 3).1 hget
  obtain ⟨m, target, tail, hl, -⟩ := hreach.mpr (by decide +kernel)
  refine ⟨⟨hany, m, target, tail, hl⟩, hget, fun m target tail hs => ?_, hremove⟩
  refine absurd (hreach'.mp ⟨m, target, tail, ?_, hs⟩) (by decide +kernel)
  exact lookup_run_eq_some_iff.mpr ⟨_, _, hs⟩

end Store

end Routing
