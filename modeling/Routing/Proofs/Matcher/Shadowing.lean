import Routing.Proofs.Http.Target
import Routing.Proofs.Matcher.Invariant

/-!
# Shadowed routes

A route is never found if another one matches whatever it matches and comes before it in the order
of search. That is a matter of the two templates and of the order of declaration only: at every
level the label of the other covers that of the route, and where the templates part they have two
placeholders of one kind, of which that of the other was declared first. Nothing else keeps a
route from being found, several others together neither, but for a literal that no path can hold.

The converse needs one target that stands for all that a route matches. It has the literals as they
are, and texts longer than all literals for the placeholders: what matches it covers the route.

* `precedes_iff_place_lt`: which of two routes comes before the other if it covers it.
* `exists_generic`: a target that is matched by a route and by those that cover it only.
* `exists_lookup_iff`: the routes that are found for some request.
-/

namespace Routing.Matcher

/-- `Covers k l`: the label `k` accepts what `l` accepts. -/
inductive Covers : Label → Label → Prop
  /-- A literal covers itself. -/
  | literal {text : String} : Covers ⟨.literal, text⟩ ⟨.literal, text⟩
  /-- An integer placeholder covers a literal with an integer reading. -/
  | number {name text : String} : (Segment.mk text).number?.isSome = true →
    Covers ⟨.int, name⟩ ⟨.literal, text⟩
  /-- An integer placeholder covers any other. -/
  | int {name name' : String} : Covers ⟨.int, name⟩ ⟨.int, name'⟩
  /-- A text placeholder covers everything. -/
  | string {name : String} {l : Label} : Covers ⟨.string, name⟩ l

/-- The route `j` with the template `ks` precedes `i` with `ls`: of two routes with one template the
one declared first does, and else the one whose placeholder was declared first, if they part at two
placeholders of one kind. -/
inductive Precedes (routes : List (Method × String)) : List Label → Nat → List Label → Nat → Prop
  | same {ls : List Label} {j i : Nat} : j < i → Precedes routes ls j ls i
  | branch {pre ks ls : List Label} {k l : Label} {j i : Nat} : k ≠ l → k.kind = l.kind →
    k.kind ≠ .literal → firstDeclared routes (pre ++ [k]) < firstDeclared routes (pre ++ [l]) →
    Precedes routes (pre ++ k :: ks) j (pre ++ l :: ls) i

variable {routes : List (Method × String)} {t : Matcher}

/-! ## Covering -/

theorem fits_of_covers {k l : Label} {text : String} (hcov : Covers k l) (h : Fits l text) :
    Fits k text := by
  cases hcov with
  | literal => exact h
  | number hnum =>
    cases h with
    | literal =>
      obtain ⟨n, hn⟩ := Option.isSome_iff_exists.mp hnum
      obtain ⟨c, r, hs, hc, hread⟩ := number?_eq_some_iff.mp hn
      exact .int hs hc hread
  | int =>
    cases h with
    | int hs hc hread => exact .int hs hc hread
  | string => exact .string

theorem forall₂_fits_of_covers {ks ls : List Label} {ss : List String}
    (hcov : List.Forall₂ Covers ks ls) (h : List.Forall₂ Fits ls ss) :
    List.Forall₂ Fits ks ss := by
  induction hcov generalizing ss with
  | nil => exact h
  | cons hkl _ ih =>
    cases h with
    | cons hl hrest => exact .cons (fits_of_covers hkl hl) (ih hrest)

/-- What matches a route matches those that cover it. -/
theorem Matches.of_covers {m : Method} {target : String} {i j : Nat} {ks ls : List Label}
    (h : Matches routes m target i ls) (hd : Declares routes (ks, m, j))
    (hcov : List.Forall₂ Covers ks ls) : Matches routes m target j ks := by
  refine ⟨hd, ?_, forall₂_fits_of_covers hcov h.fits⟩
  rintro rfl
  exact h.nonempty (List.forall₂_nil_left_iff.mp hcov)

/-- Two templates of which one covers the other are the same, or part somewhere. -/
theorem eq_or_branch_of_covers {ks ls : List Label} (hcov : List.Forall₂ Covers ks ls) :
    ks = ls ∨ ∃ pre k l ks' ls', ks = pre ++ k :: ks' ∧ ls = pre ++ l :: ls' ∧ k ≠ l ∧
      Covers k l := by
  induction hcov with
  | nil => exact Or.inl rfl
  | @cons k l ks ls hkl _ ih =>
    by_cases hne : k = l
    · subst hne
      rcases ih with rfl | ⟨pre, k', l', ks', ls', rfl, rfl, hbranch⟩
      · exact Or.inl rfl
      · exact Or.inr ⟨k :: pre, k', l', ks', ls', rfl, rfl, hbranch⟩
    · exact Or.inr ⟨[], k, l, ks, ls, rfl, rfl, hne, hkl⟩

/-- A label that covers another is not tried before it, and of those tried together only
placeholders cover another. -/
theorem rank_of_covers {k l : Label} (hcov : Covers k l) (hne : k ≠ l) :
    rank l < rank k ∨ (k.kind = l.kind ∧ k.kind ≠ .literal) := by
  cases hcov with
  | literal => exact absurd rfl hne
  | number => exact Or.inl Nat.zero_lt_one
  | int => exact Or.inr ⟨rfl, by simp⟩
  | @string name l =>
    obtain ⟨kind, id⟩ := l
    cases kind with
    | literal => exact Or.inl Nat.zero_lt_two
    | int => exact Or.inl Nat.one_lt_two
    | string => exact Or.inr ⟨rfl, by simp⟩

/-! ## Preceding -/

theorem mem_paths_of_declares (h : build routes = .ok t) {e : List Label × Method × Nat}
    (he : Declares routes e) {p : List Label} (hne : p ≠ []) (hp : p <+: e.1) :
    p ∈ t.roots.paths := by
  obtain ⟨uri, hr, hls⟩ := he
  refine (mem_paths_build h).mpr ⟨hne, _, List.mem_of_getElem? hr, ?_⟩
  rw [labels_of_ok hls]
  exact hp

/-- One route declares no two nodes of one level first. -/
theorem eq_of_firstDeclared_eq (h : build routes = .ok t) {p q : List Label}
    (hp : p ∈ t.roots.paths) (hq : q ∈ t.roots.paths) (hlen : p.length = q.length)
    (heq : firstDeclared routes p = firstDeclared routes q) : p = q := by
  obtain ⟨d, hd, hpre, hdi⟩ := (isLeast_firstDeclared h hp).1
  obtain ⟨e, he, hqre, hei⟩ := (isLeast_firstDeclared h hq).1
  obtain rfl : d = e := declares_unique hd he (hdi.trans (heq.trans hei.symm))
  exact (List.prefix_of_prefix_length_le hpre hqre hlen.le).eq_of_length hlen

/-- **Of two routes one of which covers the other** the order of search is that of declaration. -/
theorem precedes_iff_place_lt (h : build routes = .ok t) {m : Method} {ks ls : List Label}
    {j i : Nat} (hd : Declares routes (ks, m, j)) (he : Declares routes (ls, m, i))
    (hcov : List.Forall₂ Covers ks ls) :
    Precedes routes ks j ls i ↔ place routes ks j < place routes ls i := by
  constructor
  · intro hprec
    cases hprec with
    | same hlt => exact Prod.Lex.toLex_lt_toLex.mpr (Or.inr ⟨rfl, hlt⟩)
    | branch _ hkind _ hfirst =>
      refine place_lt_of_order_lt (Prod.Lex.toLex_lt_toLex.mpr (Or.inr ⟨?_, hfirst⟩))
      exact congrArg Label.Kind.rank hkind
  · intro hlt
    rcases eq_or_branch_of_covers hcov with rfl | ⟨pre, k, l, ks', ls', rfl, rfl, hne, hkl⟩
    · refine .same ((Prod.Lex.toLex_lt_toLex.mp hlt).elim (fun h => ?_) fun h => h.2)
      exact absurd h (lt_irrefl _)
    · -- the label of the other is not tried later, so both are placeholders of one kind
      have hnot : ¬ order routes pre l < order routes pre k := fun hgt =>
        lt_asymm hlt (place_lt_of_order_lt hgt)
      obtain ⟨hkind, hlit⟩ := (rank_of_covers hkl hne).resolve_left fun hrank =>
        hnot (Prod.Lex.toLex_lt_toLex.mpr (Or.inl hrank))
      have hrank : rank l = rank k := congrArg Label.Kind.rank hkind.symm
      refine .branch hne hkind hlit (lt_of_le_of_ne (not_lt.mp fun hgt => ?_) fun heq => hne ?_)
      · exact hnot (Prod.Lex.toLex_lt_toLex.mpr (Or.inr ⟨hrank, hgt⟩))
      · have hpath := eq_of_firstDeclared_eq h (mem_paths_of_declares h hd (by simp) (by simp))
          (mem_paths_of_declares h he (by simp) (by simp)) (by simp) heq
        simpa using hpath

/-! ## A generic target -/

/-- A length that no label of the routes passes: that of all of them in a row. -/
def bound (routes : List (Method × String)) : Nat :=
  ((routes.flatMap fun r => labels r.2).map fun l => l.id.toList).flatten.length

/-- A text that a label accepts: for a literal its own, and for a placeholder one of more than `n`
characters. -/
def sample (n : Nat) (l : Label) : List Char :=
  match l.kind with
  | .literal => l.id.toList
  | .int => List.replicate (n + 1) '0'
  | .string => List.replicate (n + 1) 'a'

/-- A target with a sample for each label of a template. -/
def generic (n : Nat) (ls : List Label) : String :=
  String.ofList (Text.join '/' (ls.map (sample n)))

theorem length_le_bound {e : List Label × Method × Nat} (he : Declares routes e) {l : Label}
    (hl : l ∈ e.1) : l.id.length ≤ bound routes := by
  obtain ⟨uri, hr, hls⟩ := he
  have hmem : l ∈ routes.flatMap fun r => labels r.2 := by
    refine List.mem_flatMap.mpr ⟨_, List.mem_of_getElem? hr, ?_⟩
    rwa [labels_of_ok hls]
  have htext : l.id.toList ∈ (routes.flatMap fun r => labels r.2).map fun l => l.id.toList :=
    List.mem_map.mpr ⟨l, hmem, rfl⟩
  rw [← String.length_toList]
  exact (List.sublist_flatten_of_mem htext).length_le

theorem fits_sample (n : Nat) (l : Label) : Fits l (String.ofList (sample n l)) := by
  obtain ⟨kind, id⟩ := l
  cases kind with
  | literal =>
    have hid : String.ofList (sample n ⟨.literal, id⟩) = id := String.ofList_toList
    rw [hid]
    exact .literal
  | int =>
    have hzeros : (String.ofList (sample n ⟨.int, id⟩)).toList = List.replicate (n + 1) '0' :=
      String.toList_ofList
    refine .int (hzeros.trans List.replicate_succ) rfl (n := 0) ?_
    rw [hzeros]
    exact Text.Numeral.int64?_replicate_zero n
  | string => exact .string

/-- **What accepts a sample covers its label**, unless it is a longer literal. -/
theorem covers_of_fits_sample {n : Nat} {k l : Label} (hlen : k.id.length ≤ n)
    (h : Fits k (String.ofList (sample n l))) : Covers k l := by
  obtain ⟨kind, id⟩ := l
  cases kind with
  | literal =>
    have hid : String.ofList (sample n ⟨.literal, id⟩) = id := String.ofList_toList
    rw [hid] at h
    cases h with
    | literal => exact .literal
    | int hs hc hread =>
      have hnum := number?_eq_some_iff.mpr ⟨_, _, hs, hc, hread⟩
      exact .number (Option.isSome_iff_exists.mpr ⟨_, hnum⟩)
    | string => exact .string
  | int =>
    cases h with
    | literal =>
      simp only [sample, String.length_ofList, List.length_replicate] at hlen
      omega
    | int => exact .int
    | string => exact .string
  | string =>
    cases h with
    | literal =>
      simp only [sample, String.length_ofList, List.length_replicate] at hlen
      omega
    | @int _ _ c r _ hs hc =>
      have hrun : List.replicate (n + 1) 'a' = c :: r := String.toList_ofList.symm.trans hs
      obtain rfl := List.eq_of_mem_replicate (hrun ▸ List.mem_cons_self)
      exact absurd hc (by decide)
    | string => exact .string

/-- A sample can be a segment of a target. -/
theorem sample_segment {e : List Label × Method × Nat} (he : Declares routes e) {n : Nat}
    {l : Label} (hl : l ∈ e.1) (hplain : l.kind = .literal → Target.Plain l.id.toList) :
    sample n l ≠ [] ∧ '/' ∉ sample n l ∧ Target.Plain (sample n l) := by
  obtain ⟨uri, -, hls⟩ := he
  have hrun : ∀ {x c : Char}, x ≠ c → x ∉ List.replicate (n + 1) c := fun hne hx =>
    hne (List.eq_of_mem_replicate hx)
  unfold sample
  split
  · rename_i hkind
    obtain ⟨hne, hslash⟩ := literal_of_templateLabels hls hl hkind
    exact ⟨hne, hslash, hplain hkind⟩
  · exact ⟨by simp, hrun (by decide), hrun (by decide), hrun (by decide)⟩
  · exact ⟨by simp, hrun (by decide), hrun (by decide), hrun (by decide)⟩

theorem segments_generic {e : List Label × Method × Nat} (he : Declares routes e) (n : Nat)
    (hplain : ∀ l ∈ e.1, l.kind = .literal → Target.Plain l.id.toList) :
    Target.segments (generic n e.1) = e.1.map fun l => String.ofList (sample n l) := by
  refine (Target.segments_join fun p hp => ?_).trans List.map_map
  obtain ⟨l, hl, rfl⟩ := List.mem_map.mp hp
  exact sample_segment he hl (hplain l hl)

/-- **A target that only a route and those that cover it match.** -/
theorem exists_generic {m : Method} {ls : List Label} {i : Nat}
    (he : Declares routes (ls, m, i)) (hne : ls ≠ [])
    (hplain : ∀ l ∈ ls, l.kind = .literal → Target.Plain l.id.toList) :
    ∃ target, Matches routes m target i ls ∧
      ∀ j ks, Matches routes m target j ks → List.Forall₂ Covers ks ls := by
  have hsegments := segments_generic he (bound routes) hplain
  refine ⟨generic (bound routes) ls, ⟨he, hne, ?_⟩, fun j ks hks => ?_⟩
  · rw [hsegments, List.forall₂_map_right_iff, List.forall₂_same]
    exact fun l _ => fits_sample (bound routes) l
  · have hfits := hks.fits
    rw [hsegments, List.forall₂_map_right_iff] at hfits
    have hshort : ∀ k ∈ ks, k.id.length ≤ bound routes := fun k hk =>
      length_le_bound hks.declared hk
    exact ((List.forall₂_and_left ks _).mpr ⟨hshort, hfits⟩).imp fun k l h =>
      covers_of_fits_sample h.1 h.2

/-! ## The routes that are found -/

/-- Literals that match are segments. -/
theorem plain_of_forall₂_fits {ls : List Label} {ss : List String}
    (h : List.Forall₂ Fits ls ss) (hplain : ∀ s ∈ ss, Target.Plain s.toList) :
    ∀ l ∈ ls, l.kind = .literal → Target.Plain l.id.toList := by
  induction h with
  | nil => exact fun l hl => absurd hl List.not_mem_nil
  | @cons l s ls ss hfit _ ih =>
    obtain ⟨hs, hss⟩ := List.forall_mem_cons.mp hplain
    refine List.forall_mem_cons.mpr ⟨fun hkind => ?_, ih hss⟩
    cases hfit with
    | literal => exact hs
    | int => cases hkind
    | string => cases hkind

theorem ne_nil_of_declares (h : build routes = .ok t) {e : List Label × Method × Nat}
    (he : Declares routes e) : e.1 ≠ [] := by
  intro hnil
  have hpath := Forest.mem_paths_of_mem_listing ((mem_listing_build h).mpr he)
  exact Forest.nil_not_mem_paths _ (hnil ▸ hpath)

/-- **The routes that are found.** A route is found for some request iff its literals can be parts
of a path, and no other route of its method covers it and precedes it. -/
theorem exists_lookup_iff (h : build routes = .ok t) {m : Method} {ls : List Label} {i : Nat}
    (hr : Declares routes (ls, m, i)) :
    (∃ m' target p, t.lookup m' target = some (i, p)) ↔
      (∀ l ∈ ls, l.kind = .literal → Target.Plain l.id.toList) ∧
        ¬ ∃ j ks, j ≠ i ∧ Declares routes (ks, m, j) ∧ List.Forall₂ Covers ks ls ∧
          Precedes routes ks j ls i := by
  constructor
  · rintro ⟨m', target, p, hl⟩
    obtain ⟨ls', hm, -, hleast⟩ := lookup_eq_some h hl
    have hsame : (ls', m', i) = (ls, m, i) := declares_unique hm.declared hr rfl
    obtain ⟨rfl, hrest⟩ := Prod.mk.inj hsame
    obtain rfl := (Prod.mk.inj hrest).1
    refine ⟨plain_of_forall₂_fits hm.fits fun s => Target.plain_of_mem_segments, ?_⟩
    rintro ⟨j, ks, -, hd, hcov, hprec⟩
    have hlt := (precedes_iff_place_lt h hd hr hcov).mp hprec
    exact absurd hlt (not_lt.mpr (hleast j ks (hm.of_covers hd hcov)))
  · rintro ⟨hplain, hnone⟩
    obtain ⟨target, hm, hgeneric⟩ := exists_generic hr (ne_nil_of_declares h hr) hplain
    cases hl : t.lookup m target with
    | none => exact absurd hm ((lookup_eq_none h).mp hl i ls)
    | some found =>
      obtain ⟨j, p⟩ := found
      obtain ⟨ks, hks, -, hleast⟩ := lookup_eq_some h hl
      by_cases hji : j = i
      · subst hji
        exact ⟨m, target, p, hl⟩
      · -- what is found in its place covers the route and is less
        have hcov := hgeneric j ks hks
        have hne : place routes ks j ≠ place routes ls i := fun heq =>
          hji (congrArg (fun x => (ofLex x).2) heq)
        have hlt := lt_of_le_of_ne (hleast i ls hm) hne
        have hprec := (precedes_iff_place_lt h hks.declared hr hcov).mpr hlt
        exact absurd ⟨j, ks, hji, hks.declared, hcov, hprec⟩ hnone

/-- Routes with overlapping templates, one of them with a literal that no path can hold. -/
def overlapping : List (Method × String) :=
  [(.get, "<int:a>/x"), (.get, "<int:b>/<string:c>"), (.get, "/<int:b>/x/"), (.get, "7/x"),
    (.get, "7?/x")]

/-- A literal is found although an integer placeholder covers it; of two integer placeholders the
one declared later is not. -/
theorem exists_lookup_iff_overlapping :
    ∃ t, build overlapping = .ok t ∧
      (∃ m' target p, t.lookup m' target = some (3, p)) ∧
      (¬ ∃ j ks, j ≠ 3 ∧ Declares overlapping (ks, .get, j) ∧
        List.Forall₂ Covers ks [⟨.literal, "7"⟩, ⟨.literal, "x"⟩] ∧
        Precedes overlapping ks j [⟨.literal, "7"⟩, ⟨.literal, "x"⟩] 3) ∧
      (¬ ∃ m' target p, t.lookup m' target = some (2, p)) ∧
      ¬ ∃ m' target p, t.lookup m' target = some (4, p) := by
  let t : Matcher := (build overlapping).toOption.getD ⟨.nil⟩
  have hbuild : build overlapping = .ok t := rfl
  have hfirst : Declares overlapping ([⟨.int, "a"⟩, ⟨.literal, "x"⟩], .get, 0) := ⟨_, rfl, rfl⟩
  have hlater : Declares overlapping ([⟨.int, "b"⟩, ⟨.literal, "x"⟩], .get, 2) := ⟨_, rfl, rfl⟩
  have hliteral : Declares overlapping ([⟨.literal, "7"⟩, ⟨.literal, "x"⟩], .get, 3) :=
    ⟨_, rfl, rfl⟩
  have hquery : Declares overlapping ([⟨.literal, "7?"⟩, ⟨.literal, "x"⟩], .get, 4) :=
    ⟨_, rfl, rfl⟩
  have hfound : ∃ m' target p, t.lookup m' target = some (3, p) := ⟨.get, "7/x", _, rfl⟩
  refine ⟨t, hbuild, hfound, ((exists_lookup_iff hbuild hliteral).mp hfound).2, fun h => ?_,
    fun h => ?_⟩
  · refine ((exists_lookup_iff hbuild hlater).mp h).2 ⟨0, _, by decide, hfirst, ?_, ?_⟩
    · exact .cons .int (.cons .literal .nil)
    · exact @Precedes.branch _ [] _ _ _ _ _ _ (by decide) rfl (by decide) (by decide)
  · have hplain := ((exists_lookup_iff hbuild hquery).mp h).1 _ List.mem_cons_self rfl
    exact absurd hplain (by decide)

end Routing.Matcher
