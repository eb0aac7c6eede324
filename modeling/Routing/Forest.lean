/-!
# Forests of keyed nodes

An ordered forest: every node has a key, a value and a forest of children. The handler store keys
its nodes with the segments of paths, and the matcher with the labels of templates.

* `valueD_insert`: inserting at a path changes the value there and nowhere else.
* `valueD_erase`: erasing at a path changes the value there and nowhere else, if only blank values
  are dropped and blank ones stay blank.
-/

namespace Routing

/-- A forest: no tree, or a first node with its children and the trees after it. -/
inductive Forest (κ ν : Type) where
  /-- No tree. -/
  | nil
  /-- A node, its children, and the trees after it. -/
  | node (key : κ) (value : ν) (children siblings : Forest κ ν)

namespace Forest

variable {κ ν : Type}

instance : Inhabited (Forest κ ν) := ⟨nil⟩

/-- Whether there is no tree. -/
def isEmpty : Forest κ ν → Bool
  | nil => true
  | node .. => false

/-- The number of trees. -/
def width : Forest κ ν → Nat
  | nil => 0
  | node _ _ _ ss => ss.width + 1

/-- The keys of the roots. -/
def keys : Forest κ ν → List κ
  | nil => []
  | node k _ _ ss => k :: ss.keys

variable [DecidableEq κ]

/-- The value and the children of the root with key `k`. -/
def root? (k : κ) : Forest κ ν → Option (ν × Forest κ ν)
  | nil => none
  | node k' v cs ss => if k = k' then some (v, cs) else ss.root? k

/-- The value of the node at the path `k :: ks`. -/
def value? (k : κ) (ks : List κ) : Forest κ ν → Option ν
  | nil => none
  | node k' v cs ss =>
    if k = k' then
      match ks with
      | [] => some v
      | j :: js => cs.value? j js
    else ss.value? k ks

/-- The value at the path `k :: ks`, blank if there is no such node. -/
def valueD (blank : ν) (k : κ) (ks : List κ) (t : Forest κ ν) : ν :=
  (t.value? k ks).getD blank

/-- A single chain of nodes along the path `k :: ks`, blank but for the last. -/
def chain (blank : ν) (f : ν → ν) (k : κ) : List κ → Forest κ ν
  | [] => node k (f blank) nil nil
  | j :: js => node k blank (chain blank f j js) nil

/-- Changes the value at the path `k :: ks` by `f`; nodes missing on the way are added blank, after
their siblings. -/
def insert (blank : ν) (f : ν → ν) (k : κ) (ks : List κ) : Forest κ ν → Forest κ ν
  | nil => chain blank f k ks
  | node k' v cs ss =>
    if k = k' then
      match ks with
      | [] => node k' (f v) cs ss
      | j :: js => node k' v (cs.insert blank f j js) ss
    else node k' v cs (ss.insert blank f k ks)

/-- A node and the trees after it, without the node if it is blank and has no children. -/
def keep (isBlank : ν → Bool) (k : κ) (v : ν) (cs ss : Forest κ ν) : Forest κ ν :=
  if isBlank v && cs.isEmpty then ss else node k v cs ss

/-- Changes the value at the path `k :: ks` by `f`, if there is one, and drops the nodes on the way
to it that are left blank without children. -/
def erase (isBlank : ν → Bool) (f : ν → ν) (k : κ) (ks : List κ) : Forest κ ν → Forest κ ν
  | nil => nil
  | node k' v cs ss =>
    if k = k' then
      match ks with
      | [] => keep isBlank k' (f v) cs ss
      | j :: js => keep isBlank k' v (cs.erase isBlank f j js) ss
    else node k' v cs (ss.erase isBlank f k ks)

omit [DecidableEq κ] in
/-- A node before the first tree whose rank is not below its own. -/
def placeByRank (rank : κ → Nat) (k : κ) (v : ν) (cs : Forest κ ν) : Forest κ ν → Forest κ ν
  | nil => node k v cs nil
  | node k' v' cs' ss =>
    if rank k ≤ rank k' then node k v cs (node k' v' cs' ss)
    else node k' v' cs' (placeByRank rank k v cs ss)

omit [DecidableEq κ] in
/-- The forest with siblings in ascending rank at every level; siblings of one rank keep their
order. -/
def sortByRank (rank : κ → Nat) : Forest κ ν → Forest κ ν
  | nil => nil
  | node k v cs ss => placeByRank rank k v (cs.sortByRank rank) (ss.sortByRank rank)

/-! ## Laws -/

@[simp] theorem valueD_nil (blank : ν) (k : κ) (ks : List κ) :
    (nil : Forest κ ν).valueD blank k ks = blank := rfl

theorem valueD_node_self (blank : ν) (k : κ) (v : ν) (cs ss : Forest κ ν) :
    (node k v cs ss).valueD blank k [] = v := by
  simp [valueD, value?]

theorem valueD_node_child (blank : ν) (k j : κ) (js : List κ) (v : ν) (cs ss : Forest κ ν) :
    (node k v cs ss).valueD blank k (j :: js) = cs.valueD blank j js := by
  simp [valueD, value?]

theorem valueD_node_of_ne (blank : ν) {k k' : κ} (h : k ≠ k') (ks : List κ) (v : ν)
    (cs ss : Forest κ ν) : (node k' v cs ss).valueD blank k ks = ss.valueD blank k ks := by
  simp [valueD, value?, h]

theorem valueD_chain (blank : ν) (f : ν → ν) (k : κ) (ks : List κ) (j : κ) (js : List κ) :
    (chain blank f k ks).valueD blank j js
      = if j = k ∧ js = ks then f blank else blank := by
  induction ks generalizing k j js with
  | nil =>
    by_cases h : j = k
    · subst h
      cases js with
      | nil => simp [chain, valueD_node_self]
      | cons i is => simp [chain, valueD_node_child]
    · simp [chain, valueD_node_of_ne blank h, h]
  | cons l ls ih =>
    by_cases h : j = k
    · subst h
      cases js with
      | nil => simp [chain, valueD_node_self]
      | cons i is => simp [chain, valueD_node_child, ih]
    · simp [chain, valueD_node_of_ne blank h, h]

theorem valueD_insert (blank : ν) (f : ν → ν) (k : κ) (ks : List κ) (t : Forest κ ν) (j : κ)
    (js : List κ) :
    (t.insert blank f k ks).valueD blank j js
      = if j = k ∧ js = ks then f (t.valueD blank k ks) else t.valueD blank j js := by
  induction t generalizing k ks j js with
  | nil => simp [insert, valueD_chain]
  | node k' v cs ss ihc ihs =>
    by_cases hk : k = k'
    · subst hk
      cases ks with
      | nil =>
        by_cases hj : j = k
        · subst hj
          cases js with
          | nil => simp [insert, valueD_node_self]
          | cons i is => simp [insert, valueD_node_child]
        · simp [insert, valueD_node_of_ne blank hj, hj]
      | cons l ls =>
        by_cases hj : j = k
        · subst hj
          cases js with
          | nil => simp [insert, valueD_node_self]
          | cons i is => simp [insert, valueD_node_child, ihc]
        · simp [insert, valueD_node_of_ne blank hj, hj]
    · by_cases hj : j = k'
      · subst hj
        have hne : ¬(j = k ∧ js = ks) := fun h => hk h.1.symm
        rw [if_neg hne]
        cases js with
        | nil => simp [insert, hk, valueD_node_self]
        | cons i is => simp [insert, hk, valueD_node_child]
      · simp [insert, hk, valueD_node_of_ne blank hj, valueD_node_of_ne blank hk, ihs]

theorem valueD_of_root?_eq_none (blank : ν) {t : Forest κ ν} {k : κ} (h : t.root? k = none)
    (ks : List κ) : t.valueD blank k ks = blank := by
  induction t with
  | nil => rfl
  | node k' v cs ss _ ihs =>
    have hne : k ≠ k' := by
      intro e
      simp [root?, e] at h
    rw [valueD_node_of_ne blank hne]
    exact ihs (by simpa [root?, hne] using h)

theorem valueD_nil_of_root? (blank : ν) {t : Forest κ ν} {k : κ} {v : ν} {cs : Forest κ ν}
    (h : t.root? k = some (v, cs)) : t.valueD blank k [] = v := by
  induction t with
  | nil => simp [root?] at h
  | node k' v' cs' ss _ ihs =>
    by_cases hk : k = k'
    · subst hk
      simp only [root?, if_true, Option.some.injEq, Prod.mk.injEq] at h
      rw [valueD_node_self, h.1]
    · rw [valueD_node_of_ne blank hk]
      exact ihs (by simpa [root?, hk] using h)

theorem valueD_cons_of_root? (blank : ν) {t : Forest κ ν} {k : κ} {v : ν} {cs : Forest κ ν}
    (h : t.root? k = some (v, cs)) (j : κ) (js : List κ) :
    t.valueD blank k (j :: js) = cs.valueD blank j js := by
  induction t with
  | nil => simp [root?] at h
  | node k' v' cs' ss _ ihs =>
    by_cases hk : k = k'
    · subst hk
      simp only [root?, if_true, Option.some.injEq, Prod.mk.injEq] at h
      rw [valueD_node_child, h.2]
    · rw [valueD_node_of_ne blank hk]
      exact ihs (by simpa [root?, hk] using h)

theorem valueD_keep (blank : ν) {isBlank : ν → Bool} (hb : ∀ v, isBlank v = true → v = blank)
    (k : κ) (v : ν) (cs ss : Forest κ ν) (hk : ss.root? k = none) (j : κ) (js : List κ) :
    (keep isBlank k v cs ss).valueD blank j js = (node k v cs ss).valueD blank j js := by
  unfold keep
  split
  next h =>
    simp only [Bool.and_eq_true] at h
    have hv := hb v h.1
    have hcs : cs = nil := by
      cases cs with
      | nil => rfl
      | node => simp [isEmpty] at h
    by_cases hj : j = k
    · subst hj
      rw [valueD_of_root?_eq_none blank hk]
      cases js with
      | nil => rw [valueD_node_self, hv]
      | cons i is => rw [valueD_node_child, hcs, valueD_nil]
    · rw [valueD_node_of_ne blank hj]
  next => rfl

/-- At every level no two siblings have one key. -/
def Distinct : Forest κ ν → Prop
  | nil => True
  | node k _ cs ss => ss.root? k = none ∧ cs.Distinct ∧ ss.Distinct

theorem root?_erase_of_none {isBlank : ν → Bool} {f : ν → ν} {k : κ} {ks : List κ}
    {t : Forest κ ν} {i : κ} (h : t.root? i = none) : (t.erase isBlank f k ks).root? i = none := by
  induction t with
  | nil => rfl
  | node k' v cs ss _ ihs =>
    have hne : i ≠ k' := by
      intro e
      simp [root?, e] at h
    have hs : ss.root? i = none := by simpa [root?, hne] using h
    have hkeep : ∀ (w : ν) (ds : Forest κ ν), (keep isBlank k' w ds ss).root? i = none := by
      intro w ds
      unfold keep
      split
      · exact hs
      · simp [root?, hne, hs]
    unfold erase
    split
    · cases ks with
      | nil => exact hkeep _ _
      | cons l ls => exact hkeep _ _
    · simp [root?, hne, ihs hs]

theorem valueD_erase {blank : ν} {isBlank : ν → Bool} (hb : ∀ v, isBlank v = true → v = blank)
    {f : ν → ν} (hf : f blank = blank) {t : Forest κ ν} (ht : t.Distinct) (k : κ) (ks : List κ)
    (j : κ) (js : List κ) :
    (t.erase isBlank f k ks).valueD blank j js
      = if j = k ∧ js = ks then f (t.valueD blank k ks) else t.valueD blank j js := by
  induction t generalizing k ks j js with
  | nil => simp [erase, hf]
  | node k' v cs ss ihc ihs =>
    obtain ⟨hroot, hcs, hss⟩ := ht
    by_cases hk : k = k'
    · subst hk
      cases ks with
      | nil =>
        simp only [erase, if_true, valueD_keep blank hb _ _ _ _ hroot]
        by_cases hj : j = k
        · subst hj
          cases js with
          | nil => simp [valueD_node_self]
          | cons i is => simp [valueD_node_child]
        · simp [valueD_node_of_ne blank hj, hj]
      | cons l ls =>
        simp only [erase, if_true, valueD_keep blank hb _ _ _ _ hroot]
        by_cases hj : j = k
        · subst hj
          cases js with
          | nil => simp [valueD_node_self]
          | cons i is => simp [valueD_node_child, ihc hcs]
        · simp [valueD_node_of_ne blank hj, hj]
    · by_cases hj : j = k'
      · subst hj
        have hne : ¬(j = k ∧ js = ks) := fun h => hk h.1.symm
        rw [if_neg hne]
        cases js with
        | nil => simp [erase, hk, valueD_node_self]
        | cons i is => simp [erase, hk, valueD_node_child]
      · simp [erase, hk, valueD_node_of_ne blank hj, valueD_node_of_ne blank hk, ihs hss]

theorem root?_insert_of_ne {blank : ν} {f : ν → ν} {k : κ} {ks : List κ} {t : Forest κ ν} {i : κ}
    (hi : i ≠ k) : (t.insert blank f k ks).root? i = t.root? i := by
  induction t with
  | nil => cases ks <;> simp [insert, chain, root?, hi]
  | node k' v cs ss _ ihs =>
    unfold insert
    split
    next hk => cases ks <;> simp [root?, ← hk, hi]
    next hk => simp [root?, ihs]

theorem distinct_chain (blank : ν) (f : ν → ν) (k : κ) (ks : List κ) :
    (chain blank f k ks).Distinct := by
  induction ks generalizing k with
  | nil => simp [chain, Distinct, root?]
  | cons j js ih => simp [chain, Distinct, root?, ih]

theorem distinct_insert (blank : ν) (f : ν → ν) (k : κ) (ks : List κ) {t : Forest κ ν}
    (h : t.Distinct) : (t.insert blank f k ks).Distinct := by
  induction t generalizing k ks with
  | nil => exact distinct_chain blank f k ks
  | node k' v cs ss ihc ihs =>
    obtain ⟨hroot, hcs, hss⟩ := h
    unfold insert
    split
    next =>
      cases ks with
      | nil => exact ⟨hroot, hcs, hss⟩
      | cons j js => exact ⟨hroot, ihc j js hcs, hss⟩
    next hk =>
      exact ⟨by rw [root?_insert_of_ne (Ne.symm hk)]; exact hroot, hcs, ihs k ks hss⟩

theorem distinct_keep {isBlank : ν → Bool} {k : κ} {v : ν} {cs ss : Forest κ ν}
    (hroot : ss.root? k = none) (hcs : cs.Distinct) (hss : ss.Distinct) :
    (keep isBlank k v cs ss).Distinct := by
  unfold keep
  split
  · exact hss
  · exact ⟨hroot, hcs, hss⟩

theorem distinct_erase (isBlank : ν → Bool) (f : ν → ν) (k : κ) (ks : List κ) {t : Forest κ ν}
    (h : t.Distinct) : (t.erase isBlank f k ks).Distinct := by
  induction t generalizing k ks with
  | nil => exact h
  | node k' v cs ss ihc ihs =>
    obtain ⟨hroot, hcs, hss⟩ := h
    unfold erase
    split
    next =>
      cases ks with
      | nil => exact distinct_keep hroot hcs hss
      | cons j js => exact distinct_keep hroot (ihc j js hcs) hss
    next => exact ⟨root?_erase_of_none hroot, hcs, ihs k ks hss⟩

end Forest

end Routing
