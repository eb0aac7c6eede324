import Mathlib.Order.Bounds.Defs
import Routing.Api
import Routing.Proofs.Forest.Level
import Routing.Proofs.Matcher.Search

/-!
# The invariant of a matcher

A matcher that is built from a list of routes has a node for every start of a template, and every
route at the node of its template. Siblings have different labels and stand in the order in which
they are tried: literals, integer placeholders, text placeholders, and of one kind the one first
that the first route leads through. The endings of a node are in the order of declaration, and no
node is there that does not lead to a route.

* `isLeast_firstDeclared`: the first route through a node.
* `wellFormed_of_build`: the invariant of every matcher that is built.
* `build_wellFormed`: and what it means for the lookups of an API.
-/

namespace Routing.Matcher

/-- **What holds of the matcher of a list of routes.** -/
structure WellFormed (routes : List (Method × String)) (t : Matcher) : Prop where
  /-- No two siblings have one label. -/
  nodup : ∀ pre u, t.roots.Level pre u → u.keys.Nodup
  /-- Siblings are in the order of search: by their ranks, and of one rank by the first route that
  declares them. -/
  ordered : ∀ pre u, t.roots.Level pre u →
    u.keys.Pairwise fun k l => order routes pre k < order routes pre l
  /-- The first route that declares a node is the first of those at it and below it. -/
  first : ∀ pre u, t.roots.Level pre u → ∀ l es cs, (l, es, cs) ∈ u.trees →
    IsLeast {i | ∃ e ∈ (Forest.node l es cs .nil).listing, e.2.2 = i}
      (firstDeclared routes (pre ++ [l]))
  /-- At or below every node there is a route. -/
  inhabited : ∀ pre u, t.roots.Level pre u → ∀ l es cs, (l, es, cs) ∈ u.trees →
    (Forest.node l es cs .nil).listing ≠ []
  /-- Every route is somewhere, and nowhere else. -/
  once : (t.roots.listing.map fun e => e.2.2).Perm (List.range routes.length)
  /-- A route is at the node of its template, under its method. -/
  declared : ∀ e ∈ t.roots.listing, Declares routes e
  /-- The routes of a node are in the order of declaration. -/
  endings : ∀ pre u, t.roots.Level pre u → ∀ l es cs, (l, es, cs) ∈ u.trees →
    es.Pairwise fun x y => x.2 < y.2

variable {routes : List (Method × String)} {t : Matcher}

/-! ## Routes through a node -/

theorem declares_unique {d e : List Label × Method × Nat} (hd : Declares routes d)
    (he : Declares routes e) (h : d.2.2 = e.2.2) : d = e := by
  obtain ⟨ks, m, i⟩ := d
  obtain ⟨ls, m', j⟩ := e
  obtain rfl : i = j := h
  obtain ⟨uri, hi, hks⟩ := hd
  obtain ⟨uri', hi', hls⟩ := he
  obtain ⟨rfl, rfl⟩ := Prod.mk.inj (Option.some.inj (hi.symm.trans hi'))
  obtain rfl : ks = ls := Except.ok.inj (hks.symm.trans hls)
  rfl

/-- **The first route through a node** is the first of those whose templates start with its
path. -/
theorem isLeast_firstDeclared (h : build routes = .ok t) {path : List Label}
    (hpath : path ∈ t.roots.paths) :
    IsLeast {i | ∃ e, Declares routes e ∧ path <+: e.1 ∧ e.2.2 = i}
      (firstDeclared routes path) := by
  obtain ⟨-, hex⟩ := (mem_paths_build h).mp hpath
  have hlt : firstDeclared (routes ++ []) path < routes.length := firstDeclared_lt hex
  rw [List.append_nil] at hlt
  constructor
  · obtain ⟨l, ls, hdecl⟩ := exists_declares h (List.getElem?_eq_getElem hlt)
    refine ⟨_, hdecl, ?_, rfl⟩
    have hprefix : path.isPrefixOf (labels routes[firstDeclared routes path].2) = true :=
      List.findIdx_getElem (w := hlt)
    obtain ⟨uri, hr, hls⟩ := hdecl
    have huri : routes[firstDeclared routes path].2 = uri := by
      rw [List.getElem?_eq_getElem hlt] at hr
      exact congrArg Prod.snd (Option.some.inj hr)
    rwa [huri, labels_of_ok hls, List.isPrefixOf_iff_prefix] at hprefix
  · rintro i ⟨⟨ls, m, i⟩, ⟨uri, hr, hls⟩, hpre, rfl⟩
    obtain ⟨hi, hget⟩ := List.getElem?_eq_some_iff.mp hr
    have hstarts : path.isPrefixOf (labels routes[i].2) = true := by
      rw [List.isPrefixOf_iff_prefix, hget, labels_of_ok hls]
      exact hpre
    exact not_lt.mp fun hbefore => by simp [List.not_of_lt_findIdx hbefore] at hstarts

/-! ## The invariant -/

/-- What stands at a node and below it are the routes whose templates start with its path. -/
theorem exists_mem_listing_node (h : build routes = .ok t) {pre : List Label}
    {u : Forest Label Endings} (hu : t.roots.Level pre u) {l : Label} {es : Endings}
    {cs : Forest Label Endings} (hmem : (l, es, cs) ∈ u.trees) {i : Nat} :
    (∃ e ∈ (Forest.node l es cs .nil).listing, e.2.2 = i)
      ↔ ∃ e, Declares routes e ∧ pre ++ [l] <+: e.1 ∧ e.2.2 = i := by
  have hnode : ∀ p x, (p, x) ∈ (Forest.node l es cs .nil).listing
      ↔ Declares routes (pre ++ p, x) ∧ [l] <+: p := fun p x => by
    rw [Forest.mem_listing_node_iff (ascending_build h) hu hmem, mem_listing_build h]
  constructor
  · rintro ⟨⟨p, x⟩, he, rfl⟩
    obtain ⟨hdecl, hp⟩ := (hnode p x).mp he
    exact ⟨_, hdecl, (List.prefix_append_right_inj pre).mpr hp, rfl⟩
  · rintro ⟨⟨ls, x⟩, hdecl, ⟨rest, rfl⟩, rfl⟩
    rw [List.append_assoc] at hdecl
    exact ⟨_, (hnode _ x).mpr ⟨hdecl, List.prefix_append [l] rest⟩, rfl⟩

/-- The indices of the listed routes are those of the list. -/
theorem perm_range_build (h : build routes = .ok t) :
    (t.roots.listing.map fun e => e.2.2).Perm (List.range routes.length) := by
  have hnodup : (t.roots.listing.map fun e => e.2.2).Nodup := by
    rw [List.Nodup, List.pairwise_map]
    refine (pairwise_listing_build h).imp_of_mem fun {d e} hd he hlt heq => ?_
    obtain rfl := declares_unique ((mem_listing_build h).mp hd) ((mem_listing_build h).mp he) heq
    exact lt_irrefl _ hlt
  rw [List.perm_ext_iff_of_nodup hnodup List.nodup_range]
  intro i
  rw [List.mem_map, List.mem_range]
  constructor
  · rintro ⟨e, he, rfl⟩
    exact lt_length_of_declares ((mem_listing_build h).mp he)
  · intro hi
    obtain ⟨l, ls, hdecl⟩ := exists_declares h (List.getElem?_eq_getElem hi)
    exact ⟨_, (mem_listing_build h).mpr hdecl, rfl⟩

/-- **The invariant of every matcher that is built.** -/
theorem wellFormed_of_build (h : build routes = .ok t) : WellFormed routes t := by
  have hasc := ascending_build h
  have hfirst : ∀ pre u, t.roots.Level pre u → ∀ l es cs, (l, es, cs) ∈ u.trees →
      IsLeast {i | ∃ e ∈ (Forest.node l es cs .nil).listing, e.2.2 = i}
        (firstDeclared routes (pre ++ [l])) := by
    intro pre u hu l es cs hmem
    have hpath : pre ++ [l] ∈ t.roots.paths :=
      Forest.mem_paths_of_level hu
        (Forest.mem_paths_of_mem_keys (Forest.mem_keys_of_mem_trees hmem))
    simp only [exists_mem_listing_node h hu hmem]
    exact isLeast_firstDeclared h hpath
  refine ⟨fun pre u hu => ?_, fun pre u hu => ?_, hfirst, fun pre u hu l es cs hmem => ?_, ?_, ?_,
    fun pre u hu l es cs hmem => ?_⟩
  · exact Forest.nodup_keys_of_level hasc hu
  · simpa using Forest.pairwise_keys (Forest.ascending_of_level hasc hu)
  · obtain ⟨e, he, -⟩ := (hfirst pre u hu l es cs hmem).1
    exact List.ne_nil_of_mem he
  · exact perm_range_build h
  · exact fun e => (mem_listing_build h).mp
  · exact (Forest.ascending_of_mem_trees (Forest.ascending_of_level hasc hu) hmem).1

/-! ## Lookups of an API -/

/-- The index that is found is that of a route of the API, with the method of the request. -/
theorem lookup_of_build {σ : Type} {a : Api σ} {t : Matcher} (h : build a.table = .ok t)
    {m : Method} {target : String} {i : Nat} {p : Properties}
    (hl : t.lookup m target = some (i, p)) :
    ∃ r, a.routes[i]? = some r ∧ r.method = m ∧
      CompiledApi.lookup ⟨a, t⟩ m target = some (r, p) := by
  obtain ⟨ls, hmatches, -⟩ := lookup_eq_some h hl
  obtain ⟨uri, hi, -⟩ := hmatches.declared
  rw [Api.table, List.getElem?_map, Option.map_eq_some_iff] at hi
  obtain ⟨r, hr, heq⟩ := hi
  refine ⟨r, hr, (Prod.mk.inj heq).1, ?_⟩
  rw [CompiledApi.lookup, hl]
  exact congrArg (Option.map _) hr

/-- **A matcher that is built satisfies the invariant**, and no lookup of an API with these routes
is lost: what its matcher finds is a route of the API, with the method of the request. -/
theorem build_wellFormed (h : build routes = .ok t) :
    WellFormed routes t ∧ ∀ {σ : Type} (a : Api σ), a.table = routes →
      a.build = .ok ⟨a, t⟩ ∧ ∀ m target,
        (CompiledApi.lookup ⟨a, t⟩ m target = none ↔ t.lookup m target = none) ∧
          ∀ r p, CompiledApi.lookup ⟨a, t⟩ m target = some (r, p) → r.method = m := by
  refine ⟨wellFormed_of_build h, ?_⟩
  rintro σ a rfl
  refine ⟨by rw [Api.build, h], fun m target => ?_⟩
  cases hl : t.lookup m target with
  | none => simp [CompiledApi.lookup, hl]
  | some found =>
    obtain ⟨r, -, hm, hr⟩ := lookup_of_build h hl
    rw [hr]
    refine ⟨by simp, fun r' p he => ?_⟩
    obtain rfl := (Prod.mk.inj (Option.some.inj he)).1
    exact hm

/-- Templates that share a start, a route declared twice, and kinds declared in another order than
they are tried in. -/
def mixed : Api Unit where
  routes :=
    [Route.new .get "a/<string:s>" "" "" fun _ _ x => (.done, x),
      Route.new .get "/a/<int:n>/b/" "" "" fun _ _ x => (.done, x),
      Route.new .put "a/<string:s>" "" "" fun _ _ x => (.done, x),
      Route.new .get "a/<string:s>" "" "" fun _ _ x => (.done, x),
      Route.new .get "a/c" "" "" fun _ _ x => (.done, x)]

theorem build_wellFormed_mixed :
    ∃ t, build mixed.table = .ok t ∧ WellFormed mixed.table t ∧ mixed.build = .ok ⟨mixed, t⟩ ∧
      t.lookup .put "a/7" ≠ none ∧ CompiledApi.lookup ⟨mixed, t⟩ .put "a/7" ≠ none := by
  let t : Matcher := (build mixed.table).toOption.getD ⟨.nil⟩
  have hbuild : build mixed.table = .ok t := rfl
  obtain ⟨hwf, hapi⟩ := build_wellFormed hbuild
  obtain ⟨hok, hlookup⟩ := hapi mixed rfl
  have hfound : t.lookup .put "a/7" ≠ none := by decide
  exact ⟨t, hbuild, hwf, hok, hfound, mt (hlookup .put "a/7").1.mp hfound⟩

end Routing.Matcher
