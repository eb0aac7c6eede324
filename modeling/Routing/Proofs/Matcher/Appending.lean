import Mathlib.Data.List.Sort
import Routing.Proofs.Matcher.Search

/-!
# One more route

Where two routes stand in the order of search depends on the routes that first declare the levels of
their templates, and these are not behind them in the list. So routes that are declared after the
others go in between them without changing their order: the longer list, with what was added left
out, is searched in the order of the shorter one. A request finds what it found before, or one of
the routes that were added.

* `place_append`: the place of a route does not depend on the routes behind.
* `listing_append`: the order of search among the routes of before.
* `lookup_append`: what a request finds in a longer list.
* `lookup_declare`: what one more route changes.
-/

namespace Routing.Matcher

variable {routes rest : List (Method × String)} {t t' : Matcher} {m : Method} {target : String}

/-! ## The order among the routes of before -/

theorem declares_append_iff {e : List Label × Method × Nat} :
    Declares (routes ++ rest) e ∧ e.2.2 < routes.length ↔ Declares routes e := by
  constructor
  · rintro ⟨⟨uri, hr, hls⟩, hlt⟩
    rw [List.getElem?_append_left hlt] at hr
    exact ⟨uri, hr, hls⟩
  · intro h
    have hlt := lt_length_of_declares h
    obtain ⟨uri, hr, hls⟩ := h
    exact ⟨⟨uri, by rwa [List.getElem?_append_left hlt], hls⟩, hlt⟩

/-- **The place of a route** in the order of search does not depend on the routes behind. -/
theorem place_append {e : List Label × Method × Nat} (h : Declares routes e) :
    place (routes ++ rest) e.1 e.2.2 = place routes e.1 e.2.2 := by
  obtain ⟨uri, hr, hls⟩ := h
  unfold place Forest.levels
  congr 3
  funext d
  -- the levels of the template are declared by the route itself
  have hprefix : e.1.take d ++ [e.1.get d] <+: labels uri := by
    rw [labels_of_ok hls, List.get_eq_getElem, List.take_append_getElem]
    exact List.take_prefix _ _
  unfold order
  rw [firstDeclared_append ⟨_, List.mem_of_getElem? hr, hprefix⟩]

/-- **The order of search among the routes of before** is the same in a longer list. -/
theorem listing_append (h : build routes = .ok t) (h' : build (routes ++ rest) = .ok t') :
    (t'.roots.listing.filter fun e => e.2.2 < routes.length) = t.roots.listing := by
  let r (d e : List Label × Method × Nat) : Prop := place routes d.1 d.2.2 < place routes e.1 e.2.2
  have : Std.Irrefl r := ⟨fun _ => lt_irrefl _⟩
  have : Std.Antisymm r := ⟨fun _ _ hde hed => absurd hed hde.asymm⟩
  have hmem : ∀ e, e ∈ (t'.roots.listing.filter fun e => e.2.2 < routes.length)
      ↔ Declares routes e := fun e => by
    rw [List.mem_filter, decide_eq_true_iff, mem_listing_build h', declares_append_iff]
  refine List.Pairwise.eq_of_mem_iff (r := r) ?_ (pairwise_listing_build h) fun e =>
    (hmem e).trans (mem_listing_build h).symm
  refine ((pairwise_listing_build h').filter _).imp_of_mem fun hd he hlt => ?_
  rwa [place_append ((hmem _).mp hd), place_append ((hmem _).mp he)] at hlt

/-! ## What is found -/

/-- What is found first in a list is found first among some of its elements, or is none of them. -/
theorem find?_eq_or {α : Type} (l : List α) (p q : α → Bool) :
    l.find? q = (l.filter p).find? q ∨ ∃ x, l.find? q = some x ∧ p x = false := by
  rw [List.find?_filter]
  cases hfind : l.find? q with
  | none =>
    rw [List.find?_eq_none] at hfind
    refine Or.inl (List.find?_eq_none.mpr fun x hx => ?_).symm
    simp [hfind x hx]
  | some x =>
    cases hp : p x with
    | false => exact Or.inr ⟨x, rfl, hp⟩
    | true =>
      obtain ⟨hq, as, bs, rfl, has⟩ := List.find?_eq_some_iff_append.mp hfind
      refine Or.inl (List.find?_eq_some_iff_append.mpr ⟨by simp [hp, hq], as, bs, rfl, ?_⟩).symm
      exact fun a ha => by simp [has a ha]

/-- **What a request finds in a longer list**: what it found in the shorter one, or a route that was
added and matches it. -/
theorem lookup_append (h : build routes = .ok t) (h' : build (routes ++ rest) = .ok t') (m : Method)
    (target : String) :
    t'.lookup m target = t.lookup m target ∨
      ∃ i p ls, t'.lookup m target = some (i, p) ∧ routes.length ≤ i ∧
        Matches (routes ++ rest) m target i ls := by
  have hor := find?_eq_or t'.roots.listing (fun e => e.2.2 < routes.length)
    (hits m ((Target.segments target).map Segment.mk))
  rw [listing_append h h'] at hor
  rw [lookup_eq_find?, lookup_eq_find?]
  rcases hor with heq | ⟨⟨ls, m', i⟩, hfind, hnot⟩
  · exact Or.inl (by rw [heq])
  · obtain ⟨-, hm⟩ :=
      (hits_iff h').mp ⟨List.mem_of_find?_eq_some hfind, List.find?_some hfind⟩
    refine Or.inr ⟨i, _, ls, by rw [hfind]; rfl, ?_, hm⟩
    exact not_lt.mp (of_decide_eq_false hnot)

/-! ## One more route -/

variable {r : Method × String} {l : Label} {ls : List Label}

theorem exists_build_append (h : build routes = .ok t)
    (hr : templateLabels r.2 = .ok (l :: ls)) : ∃ t', build (routes ++ [r]) = .ok t' := by
  refine exists_build_iff.mpr fun s hs => ?_
  rcases List.mem_append.mp hs with hs | hs
  · exact exists_build_iff.mp ⟨t, h⟩ s hs
  · exact ⟨l, ls, by rw [List.mem_singleton.mp hs, hr]⟩

/-- What matches and is not a route of before is the new route, by its method and its template. -/
theorem Matches.last {i : Nat} {ks : List Label} (h : Matches (routes ++ [r]) m target i ks)
    (hi : routes.length ≤ i) :
    i = routes.length ∧ r.1 = m ∧ templateLabels r.2 = .ok ks := by
  have hlt : i < (routes ++ [r]).length := lt_length_of_declares h.declared
  obtain rfl : i = routes.length := by
    rw [List.length_append, List.length_singleton] at hlt
    omega
  obtain ⟨uri, hget, hls⟩ := h.declared
  obtain rfl : r = (m, uri) := by simpa using hget
  exact ⟨rfl, rfl, hls⟩

/-- A route that repeats one before it is not found. -/
theorem not_found_of_repeated (h' : build (routes ++ [r]) = .ok t') {s : Method × String}
    (hs : s ∈ routes) (hmethod : s.1 = r.1) (htemplate : templateLabels s.2 = templateLabels r.2)
    (p : Properties) : t'.lookup m target ≠ some (routes.length, p) := by
  intro hl
  obtain ⟨ks, hm, -, hleast⟩ := lookup_eq_some h' hl
  obtain ⟨-, rfl, hks⟩ := hm.last le_rfl
  obtain ⟨j, hj⟩ := List.getElem?_of_mem hs
  have hlt := (List.getElem?_eq_some_iff.mp hj).1
  have hdeclared : Declares (routes ++ [r]) (ks, r.1, j) :=
    ⟨s.2, by rw [List.getElem?_append_left hlt, hj, ← hmethod], htemplate.trans hks⟩
  have hbefore : place (routes ++ [r]) ks j < place (routes ++ [r]) ks routes.length :=
    Prod.Lex.toLex_lt_toLex.mpr (Or.inr ⟨rfl, hlt⟩)
  exact absurd hbefore (not_lt.mpr (hleast j ks ⟨hdeclared, hm.nonempty, hm.fits⟩))

/-- **One more route.** A route with a template may be declared behind any list that is built. The
routes of before are tried in the order of before, and every request finds what it found before, or
the new route if that has its method and accepts its segments. So what was found is still found, an
older route that is found was found before, and nothing changes at all if an older route has the
method and the template of the new one. -/
theorem lookup_declare (h : build routes = .ok t) (hr : templateLabels r.2 = .ok (l :: ls)) :
    ∃ t', build (routes ++ [r]) = .ok t' ∧
      (t'.roots.listing.filter fun e => e.2.2 < routes.length) = t.roots.listing ∧
      ∀ m target,
        (t'.lookup m target = t.lookup m target ∨
          (∃ p, t'.lookup m target = some (routes.length, p)) ∧ r.1 = m ∧
            List.Forall₂ Fits (l :: ls) (Target.segments target)) ∧
        (t.lookup m target ≠ none → t'.lookup m target ≠ none) ∧
        (∀ i p, t'.lookup m target = some (i, p) → i ≠ routes.length →
          t.lookup m target = some (i, p)) ∧
        ((∃ s ∈ routes, s.1 = r.1 ∧ templateLabels s.2 = templateLabels r.2) →
          t'.lookup m target = t.lookup m target) := by
  obtain ⟨t', h'⟩ := exists_build_append h hr
  refine ⟨t', h', listing_append h h', fun m target => ?_⟩
  rcases lookup_append h h' m target with hsame | ⟨i, p, ks, hnew, hi, hm⟩
  · refine ⟨Or.inl hsame, fun hne => ?_, fun i p hl _ => ?_, fun _ => hsame⟩
    · rwa [hsame]
    · rwa [← hsame]
  · obtain ⟨rfl, hmethod, hks⟩ := hm.last hi
    obtain rfl : ks = l :: ls := Except.ok.inj (hks.symm.trans hr)
    refine ⟨Or.inr ⟨⟨p, hnew⟩, hmethod, hm.fits⟩, fun _ => ?_, fun j q hl hne => ?_, ?_⟩
    · rw [hnew]
      exact Option.some_ne_none _
    · rw [hnew] at hl
      exact absurd (congrArg Prod.fst (Option.some.inj hl)).symm hne
    · rintro ⟨s, hs, hsm, hst⟩
      exact absurd hnew (not_found_of_repeated h' hs hsm hst p)

/-- A route that goes in between two others takes requests of its method from the one behind, and a
repetition takes none. -/
theorem lookup_declare_between :
    let routes : List (Method × String) := [(.get, "<string:a>/x"), (.get, "/7/x"), (.put, "8/x")]
    ∃ t t' t'', build routes = .ok t ∧ build (routes ++ [(.get, "<int:n>/x/")]) = .ok t' ∧
      build (routes ++ [(.get, "7/x/")]) = .ok t'' ∧
      (t.lookup .get "8/x").map Prod.fst = some 0 ∧
      (t'.lookup .get "8/x").map Prod.fst = some 3 ∧
      t'.lookup .put "8/x" = t.lookup .put "8/x" ∧
      ∀ m target, t''.lookup m target = t.lookup m target := by
  intro routes
  let t : Matcher := (build routes).toOption.getD ⟨.nil⟩
  have h : build routes = .ok t := rfl
  obtain ⟨t', h', -, hfound⟩ := lookup_declare (r := (.get, "<int:n>/x/")) h rfl
  obtain ⟨t'', h'', -, hrepeated⟩ := lookup_declare (r := (.get, "7/x/")) h rfl
  refine ⟨t, t', t'', h, h', h'', by decide +kernel, ?_, ?_, fun m target => ?_⟩
  · obtain rfl : (build (routes ++ [(.get, "<int:n>/x/")])).toOption.getD ⟨.nil⟩ = t' := by
      rw [h']
      rfl
    decide +kernel
  · exact (hfound .put "8/x").1.resolve_right fun hnew => absurd hnew.2.1 (by decide)
  · exact (hrepeated m target).2.2.2 ⟨(.get, "/7/x"), by decide, rfl, rfl⟩

end Routing.Matcher
