import Mathlib.Logic.Equiv.Basic
import Routing.Proofs.Matcher.Search

/-!
# The order of declaration

Two labels of one level that accept one segment are of different kinds, unless they are two
placeholders of one kind with different names. If the templates of a list never part at two such
placeholders, and no route repeats another, then of two routes that match a request the kinds of
their labels alone say which one is found. The order of declaration does not matter then: a list in
another order finds the same routes, with the same properties.

* `eq_or_part`: where two templates part that accept the same segments.
* `lookup_reordered`: lists of the same routes in different orders.
-/

namespace Routing.Matcher

/-- Two templates clash: they agree up to a level, and go on with two placeholders of one kind and
different names. -/
inductive Clash : List Label → List Label → Prop
  | here {k l : Label} {ks ls : List Label} : k.kind = l.kind → k.kind ≠ .literal → k.id ≠ l.id →
    Clash (k :: ks) (l :: ls)
  | later {l : Label} {ks ls : List Label} : Clash ks ls → Clash (l :: ks) (l :: ls)

/-- No two routes have one method and one template, and no two templates clash. -/
structure Unambiguous (routes : List (Method × String)) : Prop where
  /-- No route repeats the method and the template of another. -/
  distinct : (routes.map fun r => (r.1, labels r.2)).Nodup
  /-- No two templates clash, of whatever methods. -/
  apart : ∀ r ∈ routes, ∀ s ∈ routes, ¬ Clash (labels r.2) (labels s.2)

theorem clash_cons_iff {k l : Label} {ks ls : List Label} :
    Clash (k :: ks) (l :: ls)
      ↔ (k.kind = l.kind ∧ k.kind ≠ .literal ∧ k.id ≠ l.id) ∨ (k = l ∧ Clash ks ls) := by
  constructor
  · intro h
    cases h with
    | here hkind hlit hid => exact Or.inl ⟨hkind, hlit, hid⟩
    | later h => exact Or.inr ⟨rfl, h⟩
  · rintro (⟨hkind, hlit, hid⟩ | ⟨rfl, h⟩)
    · exact .here hkind hlit hid
    · exact .later h

instance decidableClash : ∀ ks ls, Decidable (Clash ks ls)
  | [], _ => isFalse nofun
  | _ :: _, [] => isFalse nofun
  | _ :: ks, _ :: ls =>
    have := decidableClash ks ls
    decidable_of_iff _ clash_cons_iff.symm

instance (routes : List (Method × String)) : Decidable (Unambiguous routes) :=
  decidable_of_iff ((routes.map fun r => (r.1, labels r.2)).Nodup ∧
      ∀ r ∈ routes, ∀ s ∈ routes, ¬ Clash (labels r.2) (labels s.2))
    ⟨fun h => ⟨h.1, h.2⟩, fun h => ⟨h.distinct, h.apart⟩⟩

/-! ## Where templates part -/

theorem rank_injective {k l : Label} (h : rank k = rank l) : k.kind = l.kind := by
  unfold rank at h
  cases hk : k.kind <;> cases hl : l.kind <;> simp [hk, hl, Label.Kind.rank] at h ⊢

/-- Two labels that accept one segment are tried one before the other, or are two placeholders of
one kind. -/
theorem rank_ne_of_fits {k l : Label} {text : String} (hk : Fits k text) (hl : Fits l text)
    (hne : k ≠ l) (hclash : ¬ (k.kind = l.kind ∧ k.kind ≠ .literal ∧ k.id ≠ l.id)) :
    rank k ≠ rank l := by
  intro hrank
  have hkind := rank_injective hrank
  have hid : k.id ≠ l.id := fun hid => hne (by
    cases k
    cases l
    cases hkind
    cases hid
    rfl)
  refine hclash ⟨hkind, fun hlit => ?_, hid⟩
  -- two literals that accept one text are that text
  cases hk with
  | literal =>
    cases hl with
    | literal => exact hne rfl
    | int => cases hkind
    | string => cases hkind
  | int => cases hlit
  | string => cases hlit

/-- **Where templates part.** Two templates that accept the same segments and do not clash are the
same, or part at two labels of which one is tried before the other. -/
theorem eq_or_part {ks ls : List Label} {ss : List String} (hk : List.Forall₂ Fits ks ss)
    (hl : List.Forall₂ Fits ls ss) (hclash : ¬ Clash ks ls) :
    ks = ls ∨ ∃ pre k l ks' ls', ks = pre ++ k :: ks' ∧ ls = pre ++ l :: ls' ∧
      rank k ≠ rank l := by
  induction hk generalizing ls with
  | nil =>
    cases hl
    exact Or.inl rfl
  | @cons k s ks ss hks _ ih =>
    cases hl with
    | @cons l _ ls _ hls hrest =>
      rw [clash_cons_iff, not_or] at hclash
      by_cases hne : k = l
      · subst hne
        rcases ih hrest fun h => hclash.2 ⟨rfl, h⟩ with rfl | ⟨pre, k', l', ks', ls', rfl, rfl, hr⟩
        · exact Or.inl rfl
        · exact Or.inr ⟨k :: pre, k', l', ks', ls', rfl, rfl, hr⟩
      · exact Or.inr ⟨[], k, l, ks, ls, rfl, rfl, rank_ne_of_fits hks hls hne hclash.1⟩

theorem place_lt_of_rank_lt {routes : List (Method × String)} {pre ks ls : List Label}
    {k l : Label} {j i : Nat} (h : rank k < rank l) :
    place routes (pre ++ k :: ks) j < place routes (pre ++ l :: ls) i :=
  place_lt_of_order_lt (Prod.Lex.toLex_lt_toLex.mpr (Or.inl h))

/-! ## Routes that match -/

variable {routes routes' : List (Method × String)} {t t' : Matcher} {m : Method}
  {target : String}

theorem Unambiguous.eq_of_declares (hu : Unambiguous routes) {ls : List Label} {i j : Nat}
    (hi : Declares routes (ls, m, i)) (hj : Declares routes (ls, m, j)) : i = j := by
  have hlabels : ∀ {n : Nat}, Declares routes (ls, m, n) →
      (routes.map fun r => (r.1, labels r.2))[n]? = some (m, ls) := by
    rintro n ⟨uri, hn, hls⟩
    rw [List.getElem?_map, hn, Option.map_some, labels_of_ok hls]
  have hlen := (List.getElem?_eq_some_iff.mp (hlabels hi)).1
  exact (List.getElem?_inj hlen hu.distinct).mp ((hlabels hi).trans (hlabels hj).symm)

theorem Unambiguous.not_clash (hu : Unambiguous routes) {d e : List Label × Method × Nat}
    (hd : Declares routes d) (he : Declares routes e) : ¬ Clash d.1 e.1 := by
  obtain ⟨uri, hr, hls⟩ := hd
  obtain ⟨uri', hr', hls'⟩ := he
  have := hu.apart _ (List.mem_of_getElem? hr) _ (List.mem_of_getElem? hr')
  rwa [labels_of_ok hls, labels_of_ok hls'] at this

/-- **One route is the least of those that match in any order of declaration**: two that match, each
the least in an order of its own, are the same. -/
theorem Unambiguous.eq_of_le (hu : Unambiguous routes) {ks ls : List Label} {i j i' j' : Nat}
    (hi : Matches routes m target i ls) (hj : Matches routes m target j ks)
    (hle : place routes ls i ≤ place routes ks j)
    (hle' : place routes' ks j' ≤ place routes' ls i') : ls = ks ∧ i = j := by
  rcases eq_or_part hi.fits hj.fits (hu.not_clash hi.declared hj.declared)
    with rfl | ⟨pre, l, k, ls', ks', rfl, rfl, hrank⟩
  · exact ⟨rfl, hu.eq_of_declares hi.declared hj.declared⟩
  · rcases lt_or_gt_of_ne hrank with hlt | hgt
    · exact absurd hle' (not_le.mpr (place_lt_of_rank_lt hlt))
    · exact absurd hle (not_le.mpr (place_lt_of_rank_lt hgt))

/-! ## Lists in another order -/

/-- What matches a route matches it in another order of declaration. -/
theorem Matches.reorder {σ : Fin routes.length ≃ Fin routes'.length}
    (hσ : ∀ i, routes'.get (σ i) = routes.get i) {i : Fin routes.length} {ls : List Label}
    (h : Matches routes m target i ls) : Matches routes' m target (σ i) ls := by
  obtain ⟨uri, hr, hls⟩ := h.declared
  refine ⟨⟨uri, ?_, hls⟩, h.nonempty, h.fits⟩
  rw [List.getElem?_eq_getElem i.isLt] at hr
  rw [List.getElem?_eq_getElem (σ i).isLt, ← hr]
  exact congrArg some (hσ i)

theorem get_symm {σ : Fin routes.length ≃ Fin routes'.length}
    (hσ : ∀ i, routes'.get (σ i) = routes.get i) (j : Fin routes'.length) :
    routes.get (σ.symm j) = routes'.get j := by
  rw [← hσ, σ.apply_symm_apply]

theorem mem_of_mem_reordered {σ : Fin routes.length ≃ Fin routes'.length}
    (hσ : ∀ i, routes'.get (σ i) = routes.get i) {r : Method × String} (hr : r ∈ routes') :
    r ∈ routes := by
  obtain ⟨j, rfl⟩ := List.mem_iff_get.mp hr
  rw [← get_symm hσ]
  exact List.get_mem _ _

theorem exists_build_of_reordered {σ : Fin routes.length ≃ Fin routes'.length}
    (hσ : ∀ i, routes'.get (σ i) = routes.get i) (h : ∃ t, build routes = .ok t) :
    ∃ t, build routes' = .ok t :=
  exists_build_iff.mpr fun r hr => exists_build_iff.mp h r (mem_of_mem_reordered hσ hr)

/-- **The order of declaration does not matter.** Let two lists have the same routes in different
orders, so that what is at `i` in the one is at `σ i` in the other. One is built iff the other is;
and if the routes are unambiguous, every request finds one and the same route in both, with the same
properties, or nothing in both. -/
theorem lookup_reordered (σ : Fin routes.length ≃ Fin routes'.length)
    (hσ : ∀ i, routes'.get (σ i) = routes.get i) :
    ((∃ t, build routes = .ok t) ↔ ∃ t, build routes' = .ok t) ∧
      (Unambiguous routes → ∀ t t', build routes = .ok t → build routes' = .ok t' →
        ∀ m target, (t.lookup m target = none ∧ t'.lookup m target = none) ∨
          ∃ (i : Fin routes.length) (p : Properties), t.lookup m target = some (i.val, p) ∧
            t'.lookup m target = some ((σ i).val, p)) := by
  have hσ' := get_symm hσ
  refine ⟨⟨exists_build_of_reordered hσ, exists_build_of_reordered hσ'⟩, ?_⟩
  intro hu t t' ht ht' m target
  cases hl : t.lookup m target with
  | none =>
    refine Or.inl ⟨rfl, (lookup_eq_none ht').mpr fun j ls hm => ?_⟩
    let j' : Fin routes'.length := ⟨j, lt_length_of_declares hm.declared⟩
    exact (lookup_eq_none ht).mp hl _ ls (Matches.reorder (i := j') hσ' hm)
  | some found =>
    obtain ⟨i, p⟩ := found
    obtain ⟨ls, hm, rfl, hleast⟩ := lookup_eq_some ht hl
    let i' : Fin routes.length := ⟨i, lt_length_of_declares hm.declared⟩
    have hm' : Matches routes' m target (σ i') ls := Matches.reorder (i := i') hσ hm
    cases hl' : t'.lookup m target with
    | none => exact absurd hm' ((lookup_eq_none ht').mp hl' _ ls)
    | some found' =>
      obtain ⟨j, p'⟩ := found'
      obtain ⟨ks, hk', rfl, hleast'⟩ := lookup_eq_some ht' hl'
      let j' : Fin routes'.length := ⟨j, lt_length_of_declares hk'.declared⟩
      have hk : Matches routes m target (σ.symm j') ks := Matches.reorder (i := j') hσ' hk'
      obtain ⟨rfl, hij⟩ := hu.eq_of_le hm hk (hleast _ _ hk) (hleast' _ _ hm')
      have hji : σ i' = j' := by
        rw [← σ.apply_symm_apply j']
        exact congrArg σ (Fin.ext hij)
      exact Or.inr ⟨i', _, rfl, by rw [hji]⟩

/-- Routes of which several match one request, without two that clash. -/
def graded : List (Method × String) :=
  [(.get, "<string:a>/x"), (.put, "<int:n>/x"), (.get, "<int:n>/<string:a>"),
    (.get, "7/<string:a>/y")]

/-- An integer placeholder is found before a text placeholder, whichever is declared first. -/
theorem lookup_reordered_graded :
    let swapped : List (Method × String) :=
      [(.get, "<int:n>/<string:a>"), (.put, "<int:n>/x"), (.get, "<string:a>/x"),
        (.get, "7/<string:a>/y")]
    let σ : Fin graded.length ≃ Fin swapped.length := (Equiv.swap 0 2 : Equiv.Perm (Fin 4))
    (∀ i, swapped.get (σ i) = graded.get i) ∧ Unambiguous graded ∧
      ∃ t t' p, build graded = .ok t ∧ build swapped = .ok t' ∧
        p.entries = [("a", .string "x"), ("n", .int 7)] ∧
        t.lookup .get "7/x?q" = some (2, p) ∧ t'.lookup .get "7/x?q" = some (0, p) := by
  intro swapped σ
  have hσ : ∀ i, swapped.get (σ i) = graded.get i := by decide
  have hu : Unambiguous graded := by decide +kernel
  let t : Matcher := (build graded).toOption.getD ⟨.nil⟩
  let t' : Matcher := (build swapped).toOption.getD ⟨.nil⟩
  have ht : build graded = .ok t := rfl
  have ht' : build swapped = .ok t' := rfl
  have hfound : (t.lookup .get "7/x?q").map (fun r => (r.1, r.2.entries))
      = some (2, [("a", .string "x"), ("n", .int 7)]) := by decide +kernel
  obtain ⟨⟨n, p⟩, hl, hp⟩ := Option.map_eq_some_iff.mp hfound
  obtain ⟨rfl, hentries⟩ := Prod.mk.inj hp
  refine ⟨hσ, hu, t, t', p, ht, ht', hentries, hl, ?_⟩
  rcases (lookup_reordered σ hσ).2 hu t t' ht ht' .get "7/x?q"
    with ⟨hnone, -⟩ | ⟨i, p', hi, hi'⟩
  · rw [hl] at hnone
    exact absurd hnone (by simp)
  · obtain ⟨hi2, rfl⟩ := Prod.mk.inj (Option.some.inj (hl.symm.trans hi))
    have hi0 : i = ⟨2, by decide⟩ := Fin.ext hi2.symm
    rw [hi', hi0]
    rfl

end Routing.Matcher
