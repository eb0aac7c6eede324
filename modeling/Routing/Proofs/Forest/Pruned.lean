import Routing.Forest

/-!
# Pruned forests

A forest is pruned if each of its trees holds a value that is not blank: no leaf is blank. Adding a
value that is not blank keeps a forest pruned, and so does erasing, which drops what it leaves
blank on its way out.

* `pruned_insert`, `pruned_erase`: both updates keep a forest pruned.
* `isEmpty_iff_of_pruned`: a pruned forest is empty iff all its values are blank.
-/

namespace Routing.Forest

variable {κ ν : Type}

/-- No leaf of the forest is blank. -/
def Pruned (isBlank : ν → Bool) : Forest κ ν → Prop
  | nil => True
  | node _ v cs ss =>
    (isBlank v = false ∨ cs.isEmpty = false) ∧ cs.Pruned isBlank ∧ ss.Pruned isBlank

variable [DecidableEq κ] {isBlank : ν → Bool} {blank : ν} {f : ν → ν}

omit [DecidableEq κ] in
theorem isEmpty_chain (k : κ) (ks : List κ) : (chain blank f k ks).isEmpty = false := by
  cases ks <;> rfl

theorem isEmpty_insert (k : κ) (ks : List κ) (t : Forest κ ν) :
    (t.insert blank f k ks).isEmpty = false := by
  cases t with
  | nil => exact isEmpty_chain k ks
  | node k' v cs ss =>
    unfold insert
    split
    · cases ks <;> rfl
    · rfl

omit [DecidableEq κ] in
theorem pruned_chain (hf : ∀ v, isBlank (f v) = false) (k : κ) (ks : List κ) :
    (chain blank f k ks).Pruned isBlank := by
  induction ks generalizing k with
  | nil => exact ⟨Or.inl (hf blank), trivial, trivial⟩
  | cons j js ih => exact ⟨Or.inr (isEmpty_chain j js), ih j, trivial⟩

theorem pruned_insert (hf : ∀ v, isBlank (f v) = false) (k : κ) (ks : List κ) {t : Forest κ ν}
    (h : t.Pruned isBlank) : (t.insert blank f k ks).Pruned isBlank := by
  induction t generalizing k ks with
  | nil => exact pruned_chain hf k ks
  | node k' v cs ss ihc ihs =>
    obtain ⟨hv, hcs, hss⟩ := h
    unfold insert
    split
    · cases ks with
      | nil => exact ⟨Or.inl (hf v), hcs, hss⟩
      | cons j js => exact ⟨Or.inr (isEmpty_insert j js cs), ihc j js hcs, hss⟩
    · exact ⟨hv, hcs, ihs k ks hss⟩

omit [DecidableEq κ] in
theorem pruned_keep (k : κ) (v : ν) {cs ss : Forest κ ν} (hcs : cs.Pruned isBlank)
    (hss : ss.Pruned isBlank) : (keep isBlank k v cs ss).Pruned isBlank := by
  unfold keep
  split
  · exact hss
  · rename_i h
    refine ⟨?_, hcs, hss⟩
    cases hv : isBlank v with
    | false => exact Or.inl rfl
    | true => exact Or.inr (by simpa [hv] using h)

theorem pruned_erase (k : κ) (ks : List κ) {t : Forest κ ν} (h : t.Pruned isBlank) :
    (t.erase isBlank f k ks).Pruned isBlank := by
  induction t generalizing k ks with
  | nil => exact h
  | node k' v cs ss ihc ihs =>
    obtain ⟨hv, hcs, hss⟩ := h
    unfold erase
    split
    · cases ks with
      | nil => exact pruned_keep k' (f v) hcs hss
      | cons j js => exact pruned_keep k' v (ihc j js hcs) hss
    · exact ⟨hv, hcs, ihs k ks hss⟩

theorem exists_value_of_pruned (blank : ν) {t : Forest κ ν} (h : t.Pruned isBlank)
    (hne : t.isEmpty = false) : ∃ k ks, isBlank (t.valueD blank k ks) = false := by
  induction t with
  | nil => exact absurd hne (by simp [isEmpty])
  | node k v cs ss ihc _ =>
    obtain ⟨hv | hcs, hpc, -⟩ := h
    · exact ⟨k, [], by rwa [valueD_node_self]⟩
    · obtain ⟨j, js, hj⟩ := ihc hpc hcs
      exact ⟨k, j :: js, by rwa [valueD_node_child]⟩

/-- **A pruned forest is empty iff all its values are blank.** -/
theorem isEmpty_iff_of_pruned (hb : isBlank blank = true) {t : Forest κ ν}
    (h : t.Pruned isBlank) :
    t.isEmpty = true ↔ ∀ k ks, isBlank (t.valueD blank k ks) = true := by
  constructor
  · intro ht k ks
    cases t with
    | nil => exact hb
    | node => simp [isEmpty] at ht
  · intro hall
    cases ht : t.isEmpty with
    | true => rfl
    | false =>
      obtain ⟨k, ks, hk⟩ := exists_value_of_pruned blank h ht
      rw [hall k ks] at hk
      exact absurd hk (by simp)

end Routing.Forest
