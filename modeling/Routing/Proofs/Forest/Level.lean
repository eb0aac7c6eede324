import Routing.Proofs.Forest.Listing

/-!
# The levels of a forest

The trees below one node, or the roots, are a level of a forest, and every node stands on the level
below the path of its parent. What an ascending forest says at every step of its recursion is said
here of levels: siblings ascend in their keys, so that no two of them have one key, and a path leads
to one node only. The items at and below a node are then those of the forest whose paths lead
through it.

* `ascending_of_level`: a level of an ascending forest ascends.
* `mem_listing_node_iff`: the items of the tree at a node.
* `mem_paths_of_level`: nodes of levels are at paths.
-/

namespace Routing.Forest

variable {κ ν α γ : Type}

/-- The trees of a forest: the key, the value and the children of each root. -/
def trees : Forest κ ν → List (κ × ν × Forest κ ν)
  | nil => []
  | node k v cs ss => (k, v, cs) :: ss.trees

/-- `u` holds the trees of `t` below the path `pre`. -/
inductive Level (t : Forest κ ν) : List κ → Forest κ ν → Prop
  /-- The roots. -/
  | roots : Level t [] t
  /-- The children of a node of a level. -/
  | children {pre : List κ} {u : Forest κ ν} {k : κ} {v : ν} {cs : Forest κ ν} :
    Level t pre u → (k, v, cs) ∈ u.trees → Level t (pre ++ [k]) cs

theorem keys_eq_map_trees (t : Forest κ ν) : t.keys = t.trees.map Prod.fst := by
  induction t with
  | nil => rfl
  | node k v cs ss _ ihs => rw [keys, trees, List.map_cons, ihs]

theorem mem_keys_of_mem_trees {t : Forest κ ν} {k : κ} {v : ν} {cs : Forest κ ν}
    (h : (k, v, cs) ∈ t.trees) : k ∈ t.keys := by
  rw [keys_eq_map_trees]
  exact List.mem_map_of_mem h

/-! ## Ascending levels -/

variable {number : α → Nat} {key : List κ → κ → γ}

theorem pairwise_keys [LT γ] {t : Forest κ (List α)} (h : t.Ascending number key) :
    t.keys.Pairwise fun j k => key [] j < key [] k := by
  induction t with
  | nil => exact List.Pairwise.nil
  | node k xs cs ss _ ihs => exact List.pairwise_cons.mpr ⟨h.2.1, ihs h.2.2.2⟩

theorem ascending_of_mem_trees [LT γ] {t : Forest κ (List α)} (h : t.Ascending number key)
    {k : κ} {xs : List α} {cs : Forest κ (List α)} (hmem : (k, xs, cs) ∈ t.trees) :
    (xs.Pairwise fun x y => number x < number y) ∧
      cs.Ascending number fun pre => key (k :: pre) := by
  induction t with
  | nil => exact absurd hmem List.not_mem_nil
  | node k' xs' cs' ss _ ihs =>
    obtain ⟨hxs, -, hcs, hss⟩ := h
    rcases List.mem_cons.mp hmem with heq | hmem
    · obtain ⟨rfl, rfl, rfl⟩ : k = k' ∧ xs = xs' ∧ cs = cs' := by simpa using heq
      exact ⟨hxs, hcs⟩
    · exact ihs hss hmem

/-- **A level of an ascending forest ascends**, in the keys below its path. -/
theorem ascending_of_level [LT γ] {t u : Forest κ (List α)} {pre : List κ}
    (h : t.Ascending number key) (hu : t.Level pre u) :
    u.Ascending number fun q => key (pre ++ q) := by
  induction hu with
  | roots => exact h
  | @children pre u k xs cs _ hmem ih =>
    have hcs := (ascending_of_mem_trees ih hmem).2
    simpa only [List.append_assoc, List.singleton_append] using hcs

/-- No two siblings of an ascending forest have one key. -/
theorem nodup_keys_of_level [Preorder γ] {t u : Forest κ (List α)} {pre : List κ}
    (h : t.Ascending number key) (hu : t.Level pre u) : u.keys.Nodup :=
  (pairwise_keys (ascending_of_level h hu)).imp fun {j k} hlt heq => by
    subst heq
    exact lt_irrefl _ hlt

/-! ## Nodes and their paths -/

theorem mem_paths_of_mem_trees {t : Forest κ ν} {k : κ} {v : ν} {cs : Forest κ ν}
    (h : (k, v, cs) ∈ t.trees) {p : List κ} (hp : p ∈ cs.paths) : k :: p ∈ t.paths := by
  induction t with
  | nil => exact absurd h List.not_mem_nil
  | node k' v' cs' ss _ ihs =>
    rw [mem_paths_node]
    rcases List.mem_cons.mp h with heq | h
    · obtain ⟨rfl, rfl, rfl⟩ : k = k' ∧ v = v' ∧ cs = cs' := by simpa using heq
      exact Or.inr (Or.inl ⟨p, hp, rfl⟩)
    · exact Or.inr (Or.inr (ihs h))

/-- **A path below a level** is a path of the forest. -/
theorem mem_paths_of_level {t u : Forest κ ν} {pre : List κ} (hu : t.Level pre u) {p : List κ}
    (hp : p ∈ u.paths) : pre ++ p ∈ t.paths := by
  induction hu generalizing p with
  | roots => exact hp
  | children _ hmem ih =>
    rw [List.append_assoc]
    exact ih (mem_paths_of_mem_trees hmem hp)

/-! ## The items of a node -/

/-- The items of a tree have paths that start with the key of its root. -/
theorem prefix_of_mem_listing {k : κ} {xs : List α} {cs : Forest κ (List α)} {e : List κ × α}
    (h : e ∈ (node k xs cs nil).listing) : [k] <+: e.1 := by
  obtain ⟨j, hj, js, he⟩ := exists_cons_of_mem_paths (mem_paths_of_mem_listing h)
  obtain rfl := List.mem_singleton.mp hj
  rw [he]
  exact List.prefix_append [j] js

/-- The items of a tree of a forest are those whose paths start with the key of its root. -/
theorem mem_listing_of_mem_trees {t : Forest κ (List α)} (ht : t.keys.Nodup) {k : κ} {xs : List α}
    {cs : Forest κ (List α)} (h : (k, xs, cs) ∈ t.trees) {e : List κ × α} :
    e ∈ (node k xs cs nil).listing ↔ e ∈ t.listing ∧ [k] <+: e.1 := by
  induction t with
  | nil => exact absurd h List.not_mem_nil
  | node k' xs' cs' ss _ ihs =>
    obtain ⟨hk', hss⟩ := List.nodup_cons.mp ht
    -- an item of the first tree or of a later one, told apart by the first key of its path
    have hfirst : e ∈ (node k' xs' cs' ss).listing
        ↔ e ∈ (node k' xs' cs' nil).listing ∨ e ∈ ss.listing := by
      simp only [listing, List.append_nil]
      exact List.mem_append
    have hlater : e ∈ ss.listing → ¬ [k'] <+: e.1 := by
      rintro hmem ⟨js, hjs⟩
      have hpath := mem_paths_of_mem_listing hmem
      rw [← hjs] at hpath
      exact hk' (mem_keys_of_cons_mem_paths hpath)
    rw [hfirst]
    rcases List.mem_cons.mp h with heq | hmem
    · obtain ⟨rfl, rfl, rfl⟩ : k = k' ∧ xs = xs' ∧ cs = cs' := by simpa using heq
      constructor
      · intro he
        exact ⟨Or.inl he, prefix_of_mem_listing he⟩
      · rintro ⟨he, hpre⟩
        exact he.resolve_right fun he => hlater he hpre
    · rw [ihs hss hmem]
      have hne : k ≠ k' := fun heq => hk' (heq ▸ mem_keys_of_mem_trees hmem)
      refine and_congr_left fun hpre => ⟨Or.inr, fun he => he.resolve_left fun he => hne ?_⟩
      obtain ⟨js, hjs⟩ := hpre
      obtain ⟨js', hjs'⟩ := prefix_of_mem_listing he
      exact (List.cons.inj (hjs.trans hjs'.symm)).1

theorem mem_listing_children (k : κ) (xs : List α) {cs : Forest κ (List α)} {p : List κ} {x : α} :
    (p, x) ∈ cs.listing ↔ (k :: p, x) ∈ (node k xs cs nil).listing ∧ p ≠ [] := by
  have hne : (p, x) ∈ cs.listing → p ≠ [] := fun h e =>
    nil_not_mem_paths cs (e ▸ mem_paths_of_mem_listing h)
  rw [mem_listing_node]
  constructor
  · exact fun h => ⟨Or.inr (Or.inl ⟨_, h, rfl⟩), hne h⟩
  · rintro ⟨⟨y, -, he⟩ | ⟨d, hd, he⟩ | he, hp⟩
    · exact absurd (List.cons.inj (Prod.mk.inj he).1).2 hp
    · obtain ⟨hk, rfl⟩ := Prod.mk.inj he
      rwa [(List.cons.inj hk).2]
    · exact absurd he List.not_mem_nil

/-- The items of a level are those of the forest whose paths lead below it. -/
theorem mem_listing_of_level [Preorder γ] {t u : Forest κ (List α)} {pre : List κ}
    (ht : t.Ascending number key) (hu : t.Level pre u) {p : List κ} {x : α} :
    (p, x) ∈ u.listing ↔ (pre ++ p, x) ∈ t.listing ∧ p ≠ [] := by
  induction hu generalizing p with
  | roots =>
    rw [List.nil_append, iff_self_and]
    rintro h rfl
    exact nil_not_mem_paths t (mem_paths_of_mem_listing h)
  | @children pre u k xs cs hu hmem ih =>
    rw [mem_listing_children k xs,
      mem_listing_of_mem_trees (nodup_keys_of_level ht hu) hmem, ih, List.append_assoc]
    simp

/-- **The items at a node and below it** are those of the forest whose paths lead through it. -/
theorem mem_listing_node_iff [Preorder γ] {t u : Forest κ (List α)} {pre : List κ}
    (ht : t.Ascending number key) (hu : t.Level pre u) {k : κ} {xs : List α}
    {cs : Forest κ (List α)} (h : (k, xs, cs) ∈ u.trees) {p : List κ} {x : α} :
    (p, x) ∈ (node k xs cs nil).listing ↔ (pre ++ p, x) ∈ t.listing ∧ [k] <+: p := by
  rw [mem_listing_of_mem_trees (nodup_keys_of_level ht hu) h, mem_listing_of_level ht hu]
  refine and_congr_left fun hpre => ?_
  simp only [and_iff_left_iff_imp]
  rintro - rfl
  exact absurd (List.prefix_nil.mp hpre) (by simp)

end Routing.Forest
