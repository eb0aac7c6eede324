import Routing.Matcher
import Routing.Proofs.Forest.Listing

/-!
# Compiled routes

A matcher lists the routes that it was built from in the order in which it tries them. The order is
that of their templates, level by level: literals come before integer placeholders and these before
text placeholders; of two labels of one kind below the same path the one that some route declares
first comes first. Routes with one template come in the order of declaration.

* `literal_of_templateLabels`: the literals of a template.
* `compiled_addRoute`, `compiled_addRoutes`: what adding one route, and adding all, keeps.
* `exists_build_iff`: which lists of routes are built.
* `mem_listing_build`: a matcher lists the declared routes.
* `pairwise_listing_build`: it lists them in the order of search.
-/

namespace Routing.Matcher

/-- The labels of a template, none if it is faulty. -/
def labels (uri : String) : List Label :=
  (templateLabels uri).toOption.getD []

/-- The route `e.2.2` has the template `e.1` and the method `e.2.1`. -/
def Declares (routes : List (Method × String)) (e : List Label × Method × Nat) : Prop :=
  ∃ uri, routes[e.2.2]? = some (e.2.1, uri) ∧ templateLabels uri = .ok e.1

/-- The index of the first route whose template starts with a path. -/
def firstDeclared (routes : List (Method × String)) (path : List Label) : Nat :=
  routes.findIdx fun r => path.isPrefixOf (labels r.2)

/-- What a label below a path is compared by: its rank, and the first route that declares it
there. -/
def order (routes : List (Method × String)) (pre : List Label) (l : Label) : Nat ×ₗ Nat :=
  toLex (rank l, firstDeclared routes (pre ++ [l]))

/-- The place of a route in the order of search: by the levels of its template first, and then by
its index. -/
def place (routes : List (Method × String)) (ls : List Label) (i : Nat) :
    List (Nat ×ₗ Nat) ×ₗ Nat :=
  toLex (Forest.levels (order routes) ls, i)

/-- What is compiled when the routes `done` of `all` have been added: these are listed, the nodes
are the starts of their templates, and siblings ascend in the order of declaration. -/
structure Compiled (all done : List (Method × String)) (t : Forest Label Endings) : Prop where
  listing : ∀ e, e ∈ t.listing ↔ Declares done e
  paths : ∀ p, p ∈ t.paths ↔ p ≠ [] ∧ ∃ r ∈ done, p <+: labels r.2
  ascending : t.Ascending Prod.snd fun pre l => firstDeclared all (pre ++ [l])

/-- Two templates that part are in the order of the labels where they part. -/
theorem place_lt_of_order_lt {routes : List (Method × String)} {pre ks ls : List Label}
    {k l : Label} {j i : Nat} (h : order routes pre k < order routes pre l) :
    place routes (pre ++ k :: ks) j < place routes (pre ++ l :: ls) i := by
  change Forest.place (order routes) id (_, j) < Forest.place (order routes) id (_, i)
  exact Forest.place_lt_place_of_branch h

/-! ## Templates -/

theorem kind_ne_literal_of_ofInner {inner : List Char} {l : Label}
    (h : Label.ofInner inner = .ok l) : l.kind ≠ .literal := by
  unfold Label.ofInner at h
  split at h
  · split_ifs at h <;> cases h <;> simp
  · cases h

/-- A literal stands for its own text, which is not empty. -/
theorem eq_of_ofChars_literal {s : List Char} {l : Label} (h : Label.ofChars s = .ok l)
    (hl : l.kind = .literal) : s ≠ [] ∧ l.id.toList = s := by
  unfold Label.ofChars at h
  split at h
  · cases h
  · split at h
    · cases h
    · exact absurd hl (kind_ne_literal_of_ofInner h)
  · rename_i hne _
    cases h
    exact ⟨hne, String.toList_ofList⟩

theorem ofChars_of_parse {uri s : String} {l : Label} (h : Label.parse uri s = .ok l) :
    Label.ofChars s.toList = .ok l := by
  unfold Label.parse at h
  split at h
  next l' hof => rw [hof, Except.ok.inj h]
  next => cases h

theorem labelsOf_cons_eq_ok {uri s : String} {ss : List String} {ls : List Label}
    (h : labelsOf uri (s :: ss) = .ok ls) :
    ∃ l ls', Label.ofChars s.toList = .ok l ∧ labelsOf uri ss = .ok ls' ∧ ls = l :: ls' := by
  rw [labelsOf] at h
  split at h
  next => cases h
  next l hparse =>
    split at h
    next => cases h
    next ls' hrest => exact ⟨l, ls', ofChars_of_parse hparse, hrest, (Except.ok.inj h).symm⟩

theorem exists_ofChars_of_mem_labelsOf {uri : String} {ss : List String} {ls : List Label}
    (h : labelsOf uri ss = .ok ls) {l : Label} (hl : l ∈ ls) :
    ∃ s ∈ ss, Label.ofChars s.toList = .ok l := by
  induction ss generalizing ls with
  | nil =>
    cases h
    exact absurd hl List.not_mem_nil
  | cons s ss ih =>
    obtain ⟨l', ls', hof, hrest, rfl⟩ := labelsOf_cons_eq_ok h
    rcases List.mem_cons.mp hl with rfl | hl
    · exact ⟨s, List.mem_cons_self, hof⟩
    · obtain ⟨s', hs', hof'⟩ := ih hrest hl
      exact ⟨s', List.mem_cons_of_mem _ hs', hof'⟩

/-- **The literals of a template** are texts between slashes, and not empty. -/
theorem literal_of_templateLabels {uri : String} {ls : List Label}
    (h : templateLabels uri = .ok ls) {l : Label} (hl : l ∈ ls) (hkind : l.kind = .literal) :
    l.id.toList ≠ [] ∧ '/' ∉ l.id.toList := by
  unfold templateLabels at h
  dsimp only at h
  split at h
  · cases h
    exact absurd hl List.not_mem_nil
  · obtain ⟨s, hs, hof⟩ := exists_ofChars_of_mem_labelsOf h hl
    obtain ⟨hne, hid⟩ := eq_of_ofChars_literal hof hkind
    obtain ⟨p, hp, rfl⟩ := List.mem_map.mp hs
    rw [hid]
    rw [String.toList_ofList] at hne ⊢
    exact ⟨hne, Text.not_mem_of_mem_split hp⟩

/-! ## Declarations -/

theorem labels_of_ok {uri : String} {ls : List Label} (h : templateLabels uri = .ok ls) :
    labels uri = ls := by
  rw [labels, h]
  rfl

theorem declares_append {done : List (Method × String)} {m : Method} {uri : String}
    {ls : List Label} (hls : templateLabels uri = .ok ls) {e : List Label × Method × Nat} :
    Declares (done ++ [(m, uri)]) e ↔ e = (ls, m, done.length) ∨ Declares done e := by
  obtain ⟨ks, m', i⟩ := e
  unfold Declares
  rcases Nat.lt_trichotomy i done.length with hi | rfl | hi
  · simp [List.getElem?_append_left hi, hi.ne]
  · simp only [List.getElem?_concat_length, Option.some.injEq, Prod.mk.injEq, and_true]
    constructor
    · rintro ⟨uri', ⟨rfl, rfl⟩, h⟩
      rw [hls] at h
      exact Or.inl ⟨(Except.ok.inj h).symm, rfl⟩
    · rintro (⟨rfl, rfl⟩ | ⟨uri', h, -⟩)
      · exact ⟨uri, ⟨rfl, rfl⟩, hls⟩
      · simp at h
  · have hnone : (done ++ [(m, uri)])[i]? = none :=
      List.getElem?_eq_none (by simpa using Nat.succ_le_of_lt hi)
    have hnone' : done[i]? = none := List.getElem?_eq_none hi.le
    simp [hnone, hnone', hi.ne']

theorem lt_length_of_declares {done : List (Method × String)} {e : List Label × Method × Nat}
    (h : Declares done e) : e.2.2 < done.length := by
  obtain ⟨uri, hr, -⟩ := h
  exact (List.getElem?_eq_some_iff.mp hr).1

theorem firstDeclared_lt_length {done : List (Method × String)} {p : List Label}
    (h : ∃ r ∈ done, p <+: labels r.2) : firstDeclared done p < done.length := by
  obtain ⟨r, hr, hp⟩ := h
  exact List.findIdx_lt_length.mpr ⟨r, hr, List.isPrefixOf_iff_prefix.mpr hp⟩

/-- The routes behind one that declares a path do not matter to where it is first declared. -/
theorem firstDeclared_append {done rest : List (Method × String)} {p : List Label}
    (h : ∃ r ∈ done, p <+: labels r.2) : firstDeclared (done ++ rest) p = firstDeclared done p := by
  have hlt := firstDeclared_lt_length h
  unfold firstDeclared at hlt ⊢
  rw [List.findIdx_append, if_pos hlt]

theorem firstDeclared_lt {done rest : List (Method × String)} {p : List Label}
    (h : ∃ r ∈ done, p <+: labels r.2) : firstDeclared (done ++ rest) p < done.length := by
  rw [firstDeclared_append h]
  exact firstDeclared_lt_length h

theorem le_firstDeclared {done rest : List (Method × String)} {p : List Label}
    (h : ¬ ∃ r ∈ done, p <+: labels r.2) : done.length ≤ firstDeclared (done ++ rest) p := by
  have hnot : ¬ done.findIdx (fun r => p.isPrefixOf (labels r.2)) < done.length := by
    intro hlt
    obtain ⟨r, hr, hp⟩ := List.findIdx_lt_length.mp hlt
    exact h ⟨r, hr, List.isPrefixOf_iff_prefix.mp hp⟩
  unfold firstDeclared
  rw [List.findIdx_append, if_neg hnot]
  exact Nat.le_add_left _ _

/-! ## Building -/

theorem compiled_nil (all : List (Method × String)) : Compiled all [] .nil where
  listing e := by simp [Forest.listing, Declares]
  paths p := by simp [Forest.paths]
  ascending := trivial

theorem addRoute_eq_ok {index : Nat} {m : Method} {uri : String} {t t' : Forest Label Endings}
    (h : addRoute index m uri t = .ok t') :
    ∃ l ls, templateLabels uri = .ok (l :: ls) ∧
      t' = t.insert [] (fun es => es ++ [(m, index)]) l ls := by
  unfold addRoute at h
  split at h
  · exact absurd h (by simp)
  · exact absurd h (by simp)
  · rename_i l ls hls
    exact ⟨l, ls, hls, (Except.ok.inj h).symm⟩

/-- **Adding one route.** -/
theorem compiled_addRoute {all done rest : List (Method × String)} {m : Method} {uri : String}
    {t t' : Forest Label Endings} (hall : all = done ++ (m, uri) :: rest)
    (ht : Compiled all done t) (h : addRoute done.length m uri t = .ok t') :
    Compiled all (done ++ [(m, uri)]) t' := by
  obtain ⟨l, ls, hls, rfl⟩ := addRoute_eq_ok h
  refine ⟨fun e => ?_, fun p => ?_, ?_⟩
  · rw [Forest.mem_listing_insert, declares_append hls, ht.listing]
  · rw [Forest.mem_paths_insert, ht.paths, ← and_or_left]
    simp [labels_of_ok hls, or_and_right, exists_or]
  · refine Forest.ascending_insert ht.ascending (fun e he => ?_) fun p hp q hq hne _ => ?_
    · exact lt_length_of_declares ((ht.listing e).mp he)
    · rw [hall]
      refine (firstDeclared_lt ((ht.paths p).mp hp).2).trans_le (le_firstDeclared fun h => ?_)
      exact hq ((ht.paths q).mpr ⟨hne, h⟩)

/-- **Adding all routes.** -/
theorem compiled_addRoutes {all done rest : List (Method × String)} {t t' : Forest Label Endings}
    (hall : all = done ++ rest) (ht : Compiled all done t)
    (h : addRoutes done.length rest t = .ok t') : Compiled all all t' := by
  induction rest generalizing done t with
  | nil =>
    rw [List.append_nil] at hall
    subst hall
    rw [addRoutes] at h
    exact Except.ok.inj h ▸ ht
  | cons r rs ih =>
    rw [addRoutes] at h
    split at h
    · exact absurd h (by simp)
    · rename_i t₁ hstep
      refine ih (by simpa using hall) (compiled_addRoute hall ht hstep) ?_
      simpa using h

theorem build_eq_ok {routes : List (Method × String)} {t : Matcher} (h : build routes = .ok t) :
    ∃ t₀, Compiled routes routes t₀ ∧ t.roots = t₀.sortByRank rank := by
  unfold build at h
  split at h
  · exact absurd h (by simp)
  · rename_i t₀ ht₀
    refine ⟨t₀, compiled_addRoutes (List.nil_append routes).symm (compiled_nil routes) ht₀, ?_⟩
    rw [← Except.ok.inj h]

/-- The templates of a list that is built are not faulty. -/
theorem exists_labels_of_addRoutes {index : Nat} {routes : List (Method × String)}
    {t t' : Forest Label Endings} (h : addRoutes index routes t = .ok t') :
    ∀ r ∈ routes, ∃ l ls, templateLabels r.2 = .ok (l :: ls) := by
  induction routes generalizing index t with
  | nil => exact fun r hr => absurd hr List.not_mem_nil
  | cons r rs ih =>
    rw [addRoutes] at h
    split at h
    · exact absurd h (by simp)
    · rename_i t₁ hstep
      obtain ⟨l, ls, hls, -⟩ := addRoute_eq_ok hstep
      exact List.forall_mem_cons.mpr ⟨⟨l, ls, hls⟩, ih h⟩

theorem exists_addRoutes {index : Nat} {routes : List (Method × String)}
    {t : Forest Label Endings}
    (h : ∀ r ∈ routes, ∃ l ls, templateLabels r.2 = .ok (l :: ls)) :
    ∃ t', addRoutes index routes t = .ok t' := by
  induction routes generalizing index t with
  | nil => exact ⟨t, rfl⟩
  | cons r rs ih =>
    obtain ⟨⟨l, ls, hls⟩, hrest⟩ := List.forall_mem_cons.mp h
    rw [addRoutes, addRoute, hls]
    exact ih hrest

/-- **A list of routes is built iff each of them has a template**, whatever their order. -/
theorem exists_build_iff {routes : List (Method × String)} :
    (∃ t, build routes = .ok t) ↔ ∀ r ∈ routes, ∃ l ls, templateLabels r.2 = .ok (l :: ls) := by
  constructor
  · rintro ⟨t, h⟩
    unfold build at h
    split at h
    · exact absurd h (by simp)
    · rename_i t₀ ht₀
      exact exists_labels_of_addRoutes ht₀
  · intro h
    obtain ⟨t₀, ht₀⟩ : ∃ t₀, addRoutes 0 routes .nil = .ok t₀ := exists_addRoutes h
    exact ⟨⟨t₀.sortByRank rank⟩, by rw [build, ht₀]⟩

/-- Every route of a list that is built has a template. -/
theorem exists_declares {routes : List (Method × String)} {t : Matcher}
    (h : build routes = .ok t) {i : Nat} {r : Method × String} (hr : routes[i]? = some r) :
    ∃ l ls, Declares routes (l :: ls, r.1, i) := by
  obtain ⟨l, ls, hls⟩ := exists_build_iff.mp ⟨t, h⟩ r (List.mem_of_getElem? hr)
  exact ⟨l, ls, r.2, hr, hls⟩

/-- **A matcher lists the declared routes.** -/
theorem mem_listing_build {routes : List (Method × String)} {t : Matcher}
    (h : build routes = .ok t) {e : List Label × Method × Nat} :
    e ∈ t.roots.listing ↔ Declares routes e := by
  obtain ⟨t₀, ht₀, hroots⟩ := build_eq_ok h
  rw [hroots, Forest.mem_listing_sortByRank, ht₀.listing]

/-- The nodes of a matcher are the starts of the templates. -/
theorem mem_paths_build {routes : List (Method × String)} {t : Matcher}
    (h : build routes = .ok t) {p : List Label} :
    p ∈ t.roots.paths ↔ p ≠ [] ∧ ∃ r ∈ routes, p <+: labels r.2 := by
  obtain ⟨t₀, ht₀, hroots⟩ := build_eq_ok h
  rw [hroots, Forest.mem_paths_sortByRank, ht₀.paths]

/-- Siblings of a matcher ascend in the order of search. -/
theorem ascending_build {routes : List (Method × String)} {t : Matcher}
    (h : build routes = .ok t) : t.roots.Ascending Prod.snd (order routes) := by
  obtain ⟨t₀, ht₀, hroots⟩ := build_eq_ok h
  rw [hroots]
  exact Forest.ascending_sortByRank ht₀.ascending

/-- **A matcher lists routes in the order of search.** -/
theorem pairwise_listing_build {routes : List (Method × String)} {t : Matcher}
    (h : build routes = .ok t) :
    t.roots.listing.Pairwise fun d e => place routes d.1 d.2.2 < place routes e.1 e.2.2 :=
  Forest.pairwise_listing (ascending_build h)

end Routing.Matcher
