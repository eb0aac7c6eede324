import Routing.Proofs.Forest.Pruned

/-!
# Forests as nested maps

A forest stands for a nested map: a key leads to the value of its root and to the map of the
children below it. The order of siblings does not count. Forests are the same map if they have the
same keys, and under each key the same value and the same map.

* `same_iff_valueD`: pruned forests are the same map iff they have the same value at every path,
  where a path that no node is at has the blank value.
* `exists_value_below`: below every node of a pruned forest there is a value that is not blank.
-/

namespace Routing.Forest

variable {κ ν : Type} [DecidableEq κ] {R : ν → ν → Prop}

/-- Two forests are the same nested map, with values that `R` relates. -/
inductive Same (R : ν → ν → Prop) : Forest κ ν → Forest κ ν → Prop
  | intro {t u : Forest κ ν} :
    (∀ k, t.root? k = none ↔ u.root? k = none) →
    (∀ k v cs w ds, t.root? k = some (v, cs) → u.root? k = some (w, ds) → R v w) →
    (∀ k v cs w ds, t.root? k = some (v, cs) → u.root? k = some (w, ds) → Same R cs ds) →
    Same R t u

/-- What holds of a forest as soon as it holds of the children of its roots holds of every
forest. -/
theorem induction_root? {P : Forest κ ν → Prop}
    (h : ∀ t, (∀ k v cs, t.root? k = some (v, cs) → P cs) → P t) (t : Forest κ ν) : P t := by
  refine h t ?_
  induction t with
  | nil => exact fun k v cs hr => absurd hr (by simp [root?])
  | node k' v' cs' ss ihc ihs =>
    intro k v cs hr
    by_cases hk : k = k'
    · obtain ⟨-, rfl⟩ : v' = v ∧ cs' = cs := by simpa [root?, hk] using hr
      exact h _ ihc
    · exact ihs k v cs (by simpa [root?, hk] using hr)

/-! ## Pruned forests -/

variable {isBlank : ν → Bool}

theorem pruned_of_root? {t cs : Forest κ ν} {k : κ} {v : ν} (h : t.Pruned isBlank)
    (hr : t.root? k = some (v, cs)) :
    (isBlank v = false ∨ cs.isEmpty = false) ∧ cs.Pruned isBlank := by
  induction t with
  | nil => exact absurd hr (by simp [root?])
  | node k' v' cs' ss _ ihs =>
    obtain ⟨hv, hcs, hss⟩ := h
    by_cases hk : k = k'
    · obtain ⟨rfl, rfl⟩ : v' = v ∧ cs' = cs := by simpa [root?, hk] using hr
      exact ⟨hv, hcs⟩
    · exact ihs hss (by simpa [root?, hk] using hr)

/-- Below a root of a pruned forest there is a value that is not blank. -/
theorem exists_value_of_root? (blank : ν) {t cs : Forest κ ν} {k : κ} {v : ν}
    (h : t.Pruned isBlank) (hr : t.root? k = some (v, cs)) :
    ∃ ks, isBlank (t.valueD blank k ks) = false := by
  obtain ⟨hv | hcs, hpc⟩ := pruned_of_root? h hr
  · exact ⟨[], by rwa [valueD_nil_of_root? blank hr]⟩
  · obtain ⟨j, js, hj⟩ := exists_value_of_pruned blank hpc hcs
    exact ⟨j :: js, by rwa [valueD_cons_of_root? blank hr]⟩

/-- **Below every node of a pruned forest there is a value that is not blank.** -/
theorem exists_value_below (blank : ν) {t : Forest κ ν} {k : κ} {ks : List κ} {v : ν}
    (h : t.Pruned isBlank) (hv : t.value? k ks = some v) :
    ∃ js, isBlank (t.valueD blank k (ks ++ js)) = false := by
  induction t generalizing k ks with
  | nil => exact absurd hv (by simp [value?])
  | node k' v' cs ss ihc ihs =>
    by_cases hk : k = k'
    · subst hk
      cases ks with
      | nil =>
        have hr : (node k v' cs ss).root? k = some (v', cs) := by simp [root?]
        exact exists_value_of_root? blank h hr
      | cons j js =>
        have hchild : cs.value? j js = some v := by simpa [value?] using hv
        obtain ⟨is, his⟩ := ihc h.2.1 hchild
        exact ⟨is, by rwa [List.cons_append, valueD_node_child]⟩
    · have hsibling : ss.value? k ks = some v := by simpa [value?, hk] using hv
      obtain ⟨is, his⟩ := ihs h.2.2 hsibling
      exact ⟨is, by rwa [valueD_node_of_ne blank hk]⟩

/-! ## Same maps -/

/-- Under a key the same maps have nothing, or the same value and the same map. -/
theorem root?_of_same {t u : Forest κ ν} (h : Same R t u) (k : κ) :
    (t.root? k = none ∧ u.root? k = none) ∨
      ∃ v cs w ds, t.root? k = some (v, cs) ∧ u.root? k = some (w, ds) ∧ R v w ∧ Same R cs ds := by
  obtain ⟨hkeys, hvalues, hchildren⟩ := h
  cases ht : t.root? k with
  | none => exact Or.inl ⟨rfl, (hkeys k).mp ht⟩
  | some n =>
    cases hu : u.root? k with
    | none => exact absurd ((hkeys k).mpr hu) (by simp [ht])
    | some m =>
      exact Or.inr ⟨_, _, _, _, rfl, rfl, hvalues k _ _ _ _ ht hu, hchildren k _ _ _ _ ht hu⟩

variable {blank : ν}

theorem valueD_of_same (hblank : R blank blank) {t u : Forest κ ν} (h : Same R t u) (k : κ)
    (ks : List κ) : R (t.valueD blank k ks) (u.valueD blank k ks) := by
  induction ks generalizing t u k with
  | nil =>
    rcases root?_of_same h k with ⟨ht, hu⟩ | ⟨v, cs, w, ds, ht, hu, hvw, -⟩
    · rwa [valueD_of_root?_eq_none blank ht, valueD_of_root?_eq_none blank hu]
    · rwa [valueD_nil_of_root? blank ht, valueD_nil_of_root? blank hu]
  | cons j js ih =>
    rcases root?_of_same h k with ⟨ht, hu⟩ | ⟨v, cs, w, ds, ht, hu, -, hsame⟩
    · rwa [valueD_of_root?_eq_none blank ht, valueD_of_root?_eq_none blank hu]
    · rw [valueD_cons_of_root? blank ht, valueD_cons_of_root? blank hu]
      exact ih hsame j

/-- A root of one forest is a root of every pruned forest with its values. -/
theorem root?_ne_none_of_valueD (hb : isBlank blank = true)
    (hR : ∀ v w, R v w → isBlank v = isBlank w) {t u : Forest κ ν} (hu : u.Pruned isBlank)
    (h : ∀ k ks, R (t.valueD blank k ks) (u.valueD blank k ks)) {k : κ}
    (ht : t.root? k = none) : u.root? k = none := by
  cases hr : u.root? k with
  | none => rfl
  | some n =>
    obtain ⟨ks, hks⟩ := exists_value_of_root? blank hu hr
    have hrel := hR _ _ (h k ks)
    rw [valueD_of_root?_eq_none blank ht, hb, hks] at hrel
    exact absurd hrel (by simp)

theorem same_of_valueD (hb : isBlank blank = true) (hR : ∀ v w, R v w → isBlank v = isBlank w)
    {t u : Forest κ ν} (ht : t.Pruned isBlank) (hu : u.Pruned isBlank)
    (h : ∀ k ks, R (t.valueD blank k ks) (u.valueD blank k ks)) : Same R t u := by
  induction t using induction_root? generalizing u with
  | h t ih =>
    refine .intro (fun k => ⟨?_, ?_⟩) ?_ ?_
    · exact root?_ne_none_of_valueD hb hR hu h
    · exact root?_ne_none_of_valueD (R := fun v w => R w v) hb (fun v w hvw => (hR w v hvw).symm)
        ht h
    · intro k v cs w ds hv hw
      have hrel := h k []
      rwa [valueD_nil_of_root? blank hv, valueD_nil_of_root? blank hw] at hrel
    · intro k v cs w ds hv hw
      refine ih k v cs hv (pruned_of_root? ht hv).2 (pruned_of_root? hu hw).2 fun j js => ?_
      have hrel := h k (j :: js)
      rwa [valueD_cons_of_root? blank hv, valueD_cons_of_root? blank hw] at hrel

/-- **A pruned forest is the map of its values.** -/
theorem same_iff_valueD (blank : ν) (hblank : R blank blank) (hb : isBlank blank = true)
    (hR : ∀ v w, R v w → isBlank v = isBlank w) {t u : Forest κ ν} (ht : t.Pruned isBlank)
    (hu : u.Pruned isBlank) :
    Same R t u ↔ ∀ k ks, R (t.valueD blank k ks) (u.valueD blank k ks) :=
  ⟨valueD_of_same hblank, same_of_valueD hb hR ht hu⟩

end Routing.Forest
