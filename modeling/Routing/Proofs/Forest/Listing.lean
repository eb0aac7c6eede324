import Mathlib.Data.List.Lex
import Mathlib.Data.Prod.Lex
import Routing.Forest

/-!
# Listing a forest

A forest whose values are lists holds items at paths. Depth first, its items come in the
lexicographic order of their paths if at every level siblings ascend. Siblings that are added at
the end ascend in the order in which they came, and sorting them by rank makes them ascend by rank
first.

* `pairwise_listing`: items are listed in ascending order.
* `ascending_sortByRank`: sorted siblings ascend by rank, and within a rank as before.
* `mem_listing_insert`, `mem_paths_insert`: what an insertion adds.
* `ascending_insert`: siblings ascend if those that are new come last.
-/

namespace Routing.Forest

variable {κ ν α γ : Type}

/-- The paths of the nodes, depth first. -/
def paths : Forest κ ν → List (List κ)
  | nil => []
  | node k _ cs ss => [k] :: cs.paths.map (k :: ·) ++ ss.paths

/-- The items at the nodes with the paths of these, depth first. -/
def listing : Forest κ (List α) → List (List κ × α)
  | nil => []
  | node k xs cs ss =>
    xs.map (fun x => ([k], x)) ++ cs.listing.map (fun e => (k :: e.1, e.2)) ++ ss.listing

/-! ## Paths and items -/

theorem mem_paths_node {k : κ} {v : ν} {cs ss : Forest κ ν} {p : List κ} :
    p ∈ (node k v cs ss).paths
      ↔ p = [k] ∨ (∃ q ∈ cs.paths, p = k :: q) ∨ p ∈ ss.paths := by
  simp [paths, eq_comm]

theorem mem_listing_node {k : κ} {xs : List α} {cs ss : Forest κ (List α)} {e : List κ × α} :
    e ∈ (node k xs cs ss).listing
      ↔ (∃ x ∈ xs, e = ([k], x)) ∨ (∃ d ∈ cs.listing, e = (k :: d.1, d.2)) ∨ e ∈ ss.listing := by
  simp [listing, eq_comm]

/-- A path starts with the key of a root. -/
theorem exists_cons_of_mem_paths {t : Forest κ ν} {p : List κ} (h : p ∈ t.paths) :
    ∃ k ∈ t.keys, ∃ ks, p = k :: ks := by
  induction t generalizing p with
  | nil => exact absurd h List.not_mem_nil
  | node k v cs ss _ ihs =>
    rcases mem_paths_node.mp h with rfl | ⟨q, -, rfl⟩ | h
    · exact ⟨k, List.mem_cons_self, _, rfl⟩
    · exact ⟨k, List.mem_cons_self, _, rfl⟩
    · obtain ⟨j, hj, hp⟩ := ihs h
      exact ⟨j, List.mem_cons_of_mem _ hj, hp⟩

theorem nil_not_mem_paths (t : Forest κ ν) : [] ∉ t.paths := by
  intro h
  obtain ⟨k, -, ks, he⟩ := exists_cons_of_mem_paths h
  exact absurd he (by simp)

theorem mem_keys_of_cons_mem_paths {t : Forest κ ν} {k : κ} {ks : List κ}
    (h : k :: ks ∈ t.paths) : k ∈ t.keys := by
  obtain ⟨j, hj, js, he⟩ := exists_cons_of_mem_paths h
  obtain ⟨rfl, -⟩ := List.cons.inj he
  exact hj

theorem mem_paths_of_mem_keys {t : Forest κ ν} {k : κ} (h : k ∈ t.keys) : [k] ∈ t.paths := by
  induction t with
  | nil => exact absurd h List.not_mem_nil
  | node k' v cs ss _ ihs =>
    rcases List.mem_cons.mp h with rfl | h
    · exact mem_paths_node.mpr (Or.inl rfl)
    · exact mem_paths_node.mpr (Or.inr (Or.inr (ihs h)))

theorem mem_paths_of_mem_listing {t : Forest κ (List α)} {e : List κ × α} (h : e ∈ t.listing) :
    e.1 ∈ t.paths := by
  induction t generalizing e with
  | nil => exact absurd h List.not_mem_nil
  | node k xs cs ss ihc ihs =>
    rw [mem_paths_node]
    rcases mem_listing_node.mp h with ⟨x, -, rfl⟩ | ⟨d, hd, rfl⟩ | h
    · exact Or.inl rfl
    · exact Or.inr (Or.inl ⟨d.1, ihc hd, rfl⟩)
    · exact Or.inr (Or.inr (ihs h))

/-! ## Ascending forests -/

/-- What the levels of a path are compared by: at each the key `key pre k` of the label `k` below
the path `pre`. -/
def levels (key : List κ → κ → γ) (p : List κ) : List γ :=
  List.ofFn fun d : Fin p.length => key (p.take d) (p.get d)

/-- The place of an item in the order: by the levels of its path first, and then by its number. -/
def place (key : List κ → κ → γ) (number : α → Nat) (e : List κ × α) : List γ ×ₗ Nat :=
  toLex (levels key e.1, number e.2)

/-- At every level siblings ascend in their keys, and at every node items ascend in their
numbers. -/
def Ascending [LT γ] (number : α → Nat) (key : List κ → κ → γ) : Forest κ (List α) → Prop
  | nil => True
  | node k xs cs ss =>
    (xs.Pairwise fun x y => number x < number y) ∧ (∀ k' ∈ ss.keys, key [] k < key [] k') ∧
      cs.Ascending number (fun pre => key (k :: pre)) ∧ ss.Ascending number key

theorem levels_cons (key : List κ → κ → γ) (k : κ) (ks : List κ) :
    levels key (k :: ks) = key [] k :: levels (fun pre => key (k :: pre)) ks := by
  unfold levels
  rw [List.ofFn_succ]
  rfl

theorem place_lt_place_of_lt [LT γ] {key : List κ → κ → γ} {number : α → Nat} {k j : κ}
    {ks js : List κ} {x y : α} (h : key [] k < key [] j) :
    place key number (k :: ks, x) < place key number (j :: js, y) := by
  refine Prod.Lex.toLex_lt_toLex.mpr (Or.inl ?_)
  rw [levels_cons, levels_cons]
  exact List.cons_lt_cons_iff.mpr (Or.inl h)

theorem place_cons_lt_place_cons [LT γ] {key : List κ → κ → γ} {number : α → Nat} {k : κ}
    {d e : List κ × α}
    (h : place (fun pre => key (k :: pre)) number d < place (fun pre => key (k :: pre)) number e) :
    place key number (k :: d.1, d.2) < place key number (k :: e.1, e.2) := by
  refine Prod.Lex.toLex_lt_toLex.mpr ?_
  rw [levels_cons, levels_cons]
  rcases Prod.Lex.toLex_lt_toLex.mp h with h | ⟨h, hn⟩
  · exact Or.inl (List.cons_lt_cons_iff.mpr (Or.inr ⟨rfl, h⟩))
  · exact Or.inr ⟨congrArg (key [] k :: ·) h, hn⟩

/-- Two paths that part below `pre` are compared where they part. -/
theorem place_lt_place_of_branch [LT γ] {key : List κ → κ → γ} {number : α → Nat}
    {pre ks js : List κ} {k j : κ} {x y : α} (h : key pre k < key pre j) :
    place key number (pre ++ k :: ks, x) < place key number (pre ++ j :: js, y) := by
  induction pre generalizing key with
  | nil => exact place_lt_place_of_lt h
  | cons i pre ih =>
    exact place_cons_lt_place_cons (d := (pre ++ k :: ks, x)) (e := (pre ++ j :: js, y)) (ih h)

theorem place_singleton_lt_place_cons [LT γ] {key : List κ → κ → γ} {number : α → Nat} {k j : κ}
    {js : List κ} {x y : α} :
    place key number ([k], x) < place key number (k :: j :: js, y) := by
  refine Prod.Lex.toLex_lt_toLex.mpr (Or.inl ?_)
  rw [levels_cons, levels_cons, levels_cons]
  exact List.cons_lt_cons_iff.mpr (Or.inr ⟨rfl, List.nil_lt_cons _ _⟩)

/-- **Items are listed in ascending order.** -/
theorem pairwise_listing [LT γ] {key : List κ → κ → γ} {number : α → Nat}
    {t : Forest κ (List α)} (h : t.Ascending number key) :
    t.listing.Pairwise fun d e => place key number d < place key number e := by
  induction t generalizing key with
  | nil => exact List.Pairwise.nil
  | node k xs cs ss ihc ihs =>
    obtain ⟨hxs, hkeys, hcs, hss⟩ := h
    have hlater : ∀ (ks : List κ) (x : α), ∀ e ∈ ss.listing,
        place key number (k :: ks, x) < place key number e := by
      rintro ks x ⟨p, y⟩ he
      obtain ⟨j, hj, js, rfl⟩ := exists_cons_of_mem_paths (mem_paths_of_mem_listing he)
      exact place_lt_place_of_lt (hkeys j hj)
    -- the items of the node, then those further down, which have longer paths, then the rest
    rw [listing, List.pairwise_append, List.pairwise_append]
    refine ⟨⟨?_, ?_, ?_⟩, ihs hss, ?_⟩
    · refine List.pairwise_map.mpr (hxs.imp fun hlt => ?_)
      exact Prod.Lex.toLex_lt_toLex.mpr (Or.inr ⟨rfl, hlt⟩)
    · exact List.pairwise_map.mpr ((ihc hcs).imp place_cons_lt_place_cons)
    · intro d hd e he
      obtain ⟨x, -, rfl⟩ := List.mem_map.mp hd
      obtain ⟨⟨p, y⟩, hc, rfl⟩ := List.mem_map.mp he
      obtain ⟨j, -, js, rfl⟩ := exists_cons_of_mem_paths (mem_paths_of_mem_listing hc)
      exact place_singleton_lt_place_cons
    · intro d hd e he
      rcases List.mem_append.mp hd with hd | hd
      · obtain ⟨x, -, rfl⟩ := List.mem_map.mp hd
        exact hlater [] x e he
      · obtain ⟨c, -, rfl⟩ := List.mem_map.mp hd
        exact hlater c.1 c.2 e he

/-! ## Sorting -/

variable {rank : κ → Nat}

theorem mem_keys_placeByRank {k j : κ} {v : ν} {cs t : Forest κ ν} :
    j ∈ (placeByRank rank k v cs t).keys ↔ j = k ∨ j ∈ t.keys := by
  induction t with
  | nil => simp [placeByRank, keys]
  | node k' v' cs' ss _ ihs =>
    unfold placeByRank
    split
    · simp [keys]
    · simp only [keys, List.mem_cons, ihs]
      exact or_left_comm

theorem mem_keys_sortByRank {j : κ} {t : Forest κ ν} :
    j ∈ (t.sortByRank rank).keys ↔ j ∈ t.keys := by
  induction t with
  | nil => exact Iff.rfl
  | node k v cs ss _ ihs => rw [sortByRank, mem_keys_placeByRank, ihs, keys, List.mem_cons]

theorem mem_listing_placeByRank {k : κ} {xs : List α} {cs t : Forest κ (List α)}
    {e : List κ × α} :
    e ∈ (placeByRank rank k xs cs t).listing ↔ e ∈ (node k xs cs t).listing := by
  induction t with
  | nil => exact Iff.rfl
  | node k' xs' cs' ss _ ihs =>
    unfold placeByRank
    split
    · exact Iff.rfl
    · simp only [mem_listing_node, ihs, or_left_comm]

theorem mem_listing_sortByRank {t : Forest κ (List α)} {e : List κ × α} :
    e ∈ (t.sortByRank rank).listing ↔ e ∈ t.listing := by
  induction t generalizing e with
  | nil => exact Iff.rfl
  | node k xs cs ss ihc ihs =>
    rw [sortByRank, mem_listing_placeByRank]
    simp only [mem_listing_node, ihc, ihs]

theorem mem_paths_placeByRank {k : κ} {v : ν} {cs t : Forest κ ν} {p : List κ} :
    p ∈ (placeByRank rank k v cs t).paths ↔ p ∈ (node k v cs t).paths := by
  induction t with
  | nil => exact Iff.rfl
  | node k' v' cs' ss _ ihs =>
    unfold placeByRank
    split
    · exact Iff.rfl
    · simp only [mem_paths_node, ihs, or_left_comm]

theorem mem_paths_sortByRank {t : Forest κ ν} {p : List κ} :
    p ∈ (t.sortByRank rank).paths ↔ p ∈ t.paths := by
  induction t generalizing p with
  | nil => exact Iff.rfl
  | node k v cs ss ihc ihs =>
    rw [sortByRank, mem_paths_placeByRank]
    simp only [mem_paths_node, ihc, ihs]

variable {key : List κ → κ → γ} {number : α → Nat}

/-- A node with the least key keeps sorted siblings ascending. -/
theorem ascending_placeByRank [Preorder γ] {k : κ} {xs : List α} {cs t : Forest κ (List α)}
    (hxs : xs.Pairwise fun x y => number x < number y)
    (hkeys : ∀ k' ∈ t.keys, key [] k < key [] k')
    (hcs : cs.Ascending number fun pre j => toLex (rank j, key (k :: pre) j))
    (ht : t.Ascending number fun pre j => toLex (rank j, key pre j)) :
    (placeByRank rank k xs cs t).Ascending number fun pre j => toLex (rank j, key pre j) := by
  induction t with
  | nil => exact ⟨hxs, by simp [keys], hcs, trivial⟩
  | node k' xs' cs' ss _ ihs =>
    obtain ⟨hxs', hkeys', hcs', hss⟩ := ht
    have hrank : ∀ j ∈ ss.keys, rank k' ≤ rank j := fun j hj =>
      (Prod.Lex.toLex_lt_toLex.mp (hkeys' j hj)).elim le_of_lt fun h => le_of_eq h.1
    unfold placeByRank
    split
    next hle =>
      refine ⟨hxs, fun j hj => ?_, hcs, hxs', hkeys', hcs', hss⟩
      have hle' : rank k ≤ rank j := by
        rcases List.mem_cons.mp hj with rfl | hj
        · exact hle
        · exact hle.trans (hrank j hj)
      refine Prod.Lex.toLex_lt_toLex.mpr ?_
      exact hle'.lt_or_eq.imp id fun heq => ⟨heq, hkeys j hj⟩
    next hgt =>
      have hlt : rank k' < rank k := not_le.mp hgt
      refine ⟨hxs', fun j hj => ?_, hcs', ihs (fun j hj => hkeys j (List.mem_cons_of_mem _ hj)) hss⟩
      rcases mem_keys_placeByRank.mp hj with rfl | hj
      · exact Prod.Lex.toLex_lt_toLex.mpr (Or.inl hlt)
      · exact hkeys' j hj

/-- **Sorted siblings ascend by rank**, and within a rank as before. -/
theorem ascending_sortByRank [Preorder γ] {t : Forest κ (List α)} (h : t.Ascending number key) :
    (t.sortByRank rank).Ascending number fun pre j => toLex (rank j, key pre j) := by
  induction t generalizing key with
  | nil => trivial
  | node k xs cs ss ihc ihs =>
    obtain ⟨hxs, hkeys, hcs, hss⟩ := h
    refine ascending_placeByRank hxs (fun j hj => hkeys j (mem_keys_sortByRank.mp hj)) ?_ (ihs hss)
    exact ihc hcs

/-! ## Insertion -/

theorem mem_paths_chain {blank : ν} {f : ν → ν} {k : κ} {ks p : List κ} :
    p ∈ (chain blank f k ks).paths ↔ p ≠ [] ∧ p <+: k :: ks := by
  induction ks generalizing k p with
  | nil => cases p <;> simp [chain, paths, List.prefix_cons_iff]
  | cons j js ih =>
    rw [chain, mem_paths_node]
    constructor
    · rintro (rfl | ⟨q, hq, rfl⟩ | h)
      · exact ⟨by simp, by simp⟩
      · exact ⟨by simp, (List.prefix_cons_inj k).mpr (ih.mp hq).2⟩
      · exact absurd h List.not_mem_nil
    · rintro ⟨hp, hpre⟩
      rcases List.prefix_cons_iff.mp hpre with rfl | ⟨q, rfl, hq⟩
      · exact absurd rfl hp
      · cases q with
        | nil => exact Or.inl rfl
        | cons i is => exact Or.inr (Or.inl ⟨_, ih.mpr ⟨by simp, hq⟩, rfl⟩)

theorem mem_listing_chain {x : α} {k : κ} {ks : List κ} {e : List κ × α} :
    e ∈ (chain [] (fun xs => xs ++ [x]) k ks).listing ↔ e = (k :: ks, x) := by
  induction ks generalizing k e with
  | nil => simp [chain, listing]
  | cons j js ih =>
    simp only [chain, mem_listing_node, ih]
    simp [listing]

theorem ascending_chain [LT γ] (number : α → Nat) (key : List κ → κ → γ) (x : α) (k : κ)
    (ks : List κ) : (chain [] (fun xs => xs ++ [x]) k ks).Ascending number key := by
  induction ks generalizing k key with
  | nil => simp [chain, Ascending, keys]
  | cons j js ih => simp [chain, Ascending, keys, ih]

variable [DecidableEq κ]

theorem mem_paths_insert {blank : ν} {f : ν → ν} {k : κ} {ks : List κ} {t : Forest κ ν}
    {p : List κ} :
    p ∈ (t.insert blank f k ks).paths ↔ p ∈ t.paths ∨ (p ≠ [] ∧ p <+: k :: ks) := by
  induction t generalizing k ks p with
  | nil =>
    rw [insert, mem_paths_chain]
    simp [paths]
  | node k' v cs ss ihc ihs =>
    by_cases hk : k = k'
    · subst hk
      cases ks with
      | nil =>
        have hself : (p ≠ [] ∧ p <+: [k]) → p = [k] := by
          rintro ⟨hp, hpre⟩
          rcases List.prefix_cons_iff.mp hpre with rfl | ⟨q, rfl, hq⟩
          · exact absurd rfl hp
          · rw [List.prefix_nil.mp hq]
        simp only [insert, if_true, mem_paths_node]
        exact ⟨Or.inl, fun h => h.elim id fun h => Or.inl (hself h)⟩
      | cons j js =>
        simp only [insert, if_true, mem_paths_node, ihc]
        constructor
        · rintro (rfl | ⟨q, hq | ⟨-, hq⟩, rfl⟩ | h)
          · exact Or.inl (Or.inl rfl)
          · exact Or.inl (Or.inr (Or.inl ⟨q, hq, rfl⟩))
          · exact Or.inr ⟨by simp, (List.prefix_cons_inj k).mpr hq⟩
          · exact Or.inl (Or.inr (Or.inr h))
        · rintro ((rfl | ⟨q, hq, rfl⟩ | h) | ⟨hp, hpre⟩)
          · exact Or.inl rfl
          · exact Or.inr (Or.inl ⟨q, Or.inl hq, rfl⟩)
          · exact Or.inr (Or.inr h)
          · rcases List.prefix_cons_iff.mp hpre with rfl | ⟨q, rfl, hq⟩
            · exact absurd rfl hp
            · cases q with
              | nil => exact Or.inl rfl
              | cons i is => exact Or.inr (Or.inl ⟨_, Or.inr ⟨by simp, hq⟩, rfl⟩)
    · simp only [insert, if_neg hk, mem_paths_node, ihs, or_assoc]

/-- **An insertion adds its item** and keeps those that are there. -/
theorem mem_listing_insert {x : α} {k : κ} {ks : List κ} {t : Forest κ (List α)}
    {e : List κ × α} :
    e ∈ (t.insert [] (fun xs => xs ++ [x]) k ks).listing
      ↔ e = (k :: ks, x) ∨ e ∈ t.listing := by
  induction t generalizing k ks e with
  | nil =>
    rw [insert, mem_listing_chain]
    simp [listing]
  | node k' xs cs ss ihc ihs =>
    by_cases hk : k = k'
    · subst hk
      cases ks with
      | nil =>
        simp only [insert, if_true, mem_listing_node, List.mem_append, List.mem_singleton,
          or_and_right, exists_or, exists_eq_left]
        rw [or_assoc, or_left_comm]
      | cons j js =>
        simp only [insert, if_true, mem_listing_node, ihc, or_and_right, exists_or,
          exists_eq_left, or_assoc]
        rw [or_left_comm]
    · simp only [insert, if_neg hk, mem_listing_node, ihs]
      rw [or_left_comm (b := e = _), or_left_comm]

theorem mem_keys_insert {blank : ν} {f : ν → ν} {k : κ} {ks : List κ} {t : Forest κ ν} {j : κ}
    (h : j ∈ (t.insert blank f k ks).keys) : j = k ∨ j ∈ t.keys := by
  rcases mem_paths_insert.mp (mem_paths_of_mem_keys h) with h | ⟨-, h⟩
  · exact Or.inr (mem_keys_of_cons_mem_paths h)
  · exact Or.inl (List.cons_prefix_cons.mp h).1

/-- **Siblings ascend if those that are new come last**: an insertion keeps a forest ascending if
its item has the largest number, and the nodes that it adds have larger keys than those that are
there. -/
theorem ascending_insert {number : α → Nat} {f : List κ → Nat} {x : α} {k : κ} {ks : List κ}
    {t : Forest κ (List α)} (h : t.Ascending number fun pre j => f (pre ++ [j]))
    (hnumber : ∀ e ∈ t.listing, number e.2 < number x)
    (hnew : ∀ p ∈ t.paths, ∀ q, q ∉ t.paths → q ≠ [] → q <+: k :: ks → f p < f q) :
    (t.insert [] (fun xs => xs ++ [x]) k ks).Ascending number fun pre j => f (pre ++ [j]) := by
  induction t generalizing f k ks with
  | nil => exact ascending_chain _ _ _ _ _
  | node k' xs cs ss ihc ihs =>
    obtain ⟨hxs, hkeys, hcs, hss⟩ := h
    by_cases hk : k = k'
    · subst hk
      -- no later sibling has the key, so below it paths are new here iff they are new in `cs`
      have hroot : k ∉ ss.keys := fun hmem => absurd (hkeys k hmem) (lt_irrefl _)
      cases ks with
      | nil =>
        simp only [insert, if_true]
        refine ⟨List.pairwise_append.mpr ⟨hxs, List.pairwise_singleton _ _, ?_⟩, hkeys, hcs, hss⟩
        intro y hy z hz
        rw [List.mem_singleton.mp hz]
        exact hnumber _ (mem_listing_node.mpr (Or.inl ⟨y, hy, rfl⟩))
      | cons j js =>
        simp only [insert, if_true]
        refine ⟨hxs, hkeys, ?_, hss⟩
        refine ihc (f := fun p => f (k :: p)) hcs (fun e he => ?_) fun p hp q hq hne hpre => ?_
        · exact hnumber (k :: e.1, e.2) (mem_listing_node.mpr (Or.inr (Or.inl ⟨e, he, rfl⟩)))
        · refine hnew _ (mem_paths_node.mpr (Or.inr (Or.inl ⟨p, hp, rfl⟩))) _ ?_ (by simp)
            ((List.prefix_cons_inj k).mpr hpre)
          rw [mem_paths_node]
          rintro (he | ⟨r, hr, he⟩ | hmem)
          · exact hne (List.cons.inj he).2
          · exact hq ((List.cons.inj he).2 ▸ hr)
          · exact hroot (mem_keys_of_cons_mem_paths hmem)
    · have hold : ∀ p, p <+: k :: ks → p ≠ [] → p ∉ ss.paths → p ∉ (node k' xs cs ss).paths := by
        intro p hpre hne hp
        rcases List.prefix_cons_iff.mp hpre with rfl | ⟨r, rfl, -⟩
        · exact absurd rfl hne
        · rw [mem_paths_node]
          rintro (he | ⟨r', -, he⟩ | hmem)
          · exact hk (List.cons.inj he).1
          · exact hk (List.cons.inj he).1
          · exact hp hmem
      simp only [insert, if_neg hk]
      refine ⟨hxs, fun j hj => ?_, hcs, ?_⟩
      · by_cases hjs : j ∈ ss.keys
        · exact hkeys j hjs
        · obtain rfl := (mem_keys_insert hj).resolve_right hjs
          refine hnew [k'] (mem_paths_node.mpr (Or.inl rfl)) [j] ?_ (by simp) (by simp)
          exact hold _ (by simp) (by simp) fun hmem => hjs (mem_keys_of_cons_mem_paths hmem)
      · refine ihs hss (fun e he => ?_) fun p hp q hq hne hpre => ?_
        · exact hnumber _ (mem_listing_node.mpr (Or.inr (Or.inr he)))
        · exact hnew p (mem_paths_node.mpr (Or.inr (Or.inr hp))) q (hold q hpre hne hq) hne hpre

end Routing.Forest
