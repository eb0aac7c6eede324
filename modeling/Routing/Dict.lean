/-!
# Dictionaries

Finite maps from texts, kept as entries in ascending order of their keys, so that two dictionaries
with the same bindings are equal and entries come out sorted.

* `get?_set`: what a key is bound to after binding one key.
* `ext_get?`: dictionaries with the same bindings are equal.
-/

namespace Routing

/-- A finite map from texts, as entries ascending by key. -/
structure Dict (ν : Type) where
  /-- The bindings. -/
  entries : List (String × ν)
  /-- Keys ascend, so none occurs twice. -/
  ascending : entries.Pairwise fun a b => a.1 < b.1

namespace Dict

variable {ν : Type}

/-- No bindings. -/
def empty : Dict ν :=
  ⟨[], List.Pairwise.nil⟩

instance : Inhabited (Dict ν) := ⟨empty⟩

/-- The value bound to a key in a list of entries. -/
def lookup (k : String) : List (String × ν) → Option ν
  | [] => none
  | e :: r => if k = e.1 then some e.2 else lookup k r

/-- Binds `k`, at its place in the order. -/
def place (k : String) (v : ν) : List (String × ν) → List (String × ν)
  | [] => [(k, v)]
  | e :: r =>
    if k < e.1 then (k, v) :: e :: r
    else if k = e.1 then (k, v) :: r
    else e :: place k v r

theorem mem_place {k : String} {v : ν} {l : List (String × ν)} {e : String × ν}
    (h : e ∈ place k v l) : e = (k, v) ∨ e ∈ l := by
  induction l with
  | nil => simpa [place] using h
  | cons a r ih =>
    unfold place at h
    split at h
    · simpa using h
    · split at h
      · rcases List.mem_cons.1 h with h | h
        · exact .inl h
        · exact .inr (List.mem_cons_of_mem _ h)
      · rcases List.mem_cons.1 h with h | h
        · exact .inr (by simp [h])
        · rcases ih h with h | h
          · exact .inl h
          · exact .inr (List.mem_cons_of_mem _ h)

theorem place_ascending (k : String) (v : ν) {l : List (String × ν)}
    (h : l.Pairwise fun a b => a.1 < b.1) : (place k v l).Pairwise fun a b => a.1 < b.1 := by
  induction l with
  | nil => simp [place]
  | cons a r ih =>
    have ha := (List.pairwise_cons.1 h).1
    have hr := (List.pairwise_cons.1 h).2
    unfold place
    split
    next hlt =>
      refine List.pairwise_cons.2 ⟨fun b hb => ?_, h⟩
      rcases List.mem_cons.1 hb with rfl | hb
      · exact hlt
      · exact String.lt_trans hlt (ha b hb)
    next hnlt =>
      split
      next heq =>
        subst heq
        exact List.pairwise_cons.2 ⟨ha, hr⟩
      next hne =>
        refine List.pairwise_cons.2 ⟨fun b hb => ?_, ih hr⟩
        rcases mem_place hb with rfl | hb
        · have hle : a.1 ≤ k := String.not_lt.1 hnlt
          exact Classical.byContradiction fun hn =>
            hne (String.le_antisymm (String.not_lt.1 hn) hle)
        · exact ha b hb

/-- The value bound to `k`. -/
def get? (d : Dict ν) (k : String) : Option ν :=
  lookup k d.entries

/-- Whether `k` is bound. -/
def contains (d : Dict ν) (k : String) : Bool :=
  (d.get? k).isSome

/-- Binds `k`, in place of an earlier binding. -/
def set (d : Dict ν) (k : String) (v : ν) : Dict ν :=
  ⟨place k v d.entries, place_ascending k v d.ascending⟩

/-- The number of bound keys. -/
def size (d : Dict ν) : Nat :=
  d.entries.length

/-- The bindings of a list, the last one of each key. -/
def ofList (l : List (String × ν)) : Dict ν :=
  l.foldl (fun d e => d.set e.1 e.2) empty

/-! ## Laws -/

theorem lookup_place (k : String) (v : ν) (l : List (String × ν)) (j : String) :
    lookup j (place k v l) = if j = k then some v else lookup j l := by
  induction l with
  | nil => rfl
  | cons a r ih =>
    unfold place
    split
    · rfl
    · split
      next heq =>
        subst heq
        by_cases hj : j = a.1 <;> simp [lookup, hj]
      next hne =>
        by_cases hj : j = a.1
        · have : j ≠ k := fun e => hne (by rw [← e, hj])
          simp [lookup, hj, Ne.symm hne]
        · simp [lookup, hj, ih]

@[simp] theorem get?_empty (k : String) : (empty : Dict ν).get? k = none := rfl

@[simp] theorem get?_set (d : Dict ν) (k : String) (v : ν) (j : String) :
    (d.set k v).get? j = if j = k then some v else d.get? j :=
  lookup_place k v d.entries j

theorem lookup_eq_none_of_lt {k : String} {l : List (String × ν)} (h : ∀ e ∈ l, k < e.1) :
    lookup k l = none := by
  induction l with
  | nil => rfl
  | cons a r ih =>
    have ha : k ≠ a.1 := fun e => String.lt_irrefl k (by
      have := h a (by simp); rw [← e] at this; exact this)
    simp [lookup, ha, ih fun e he => h e (by simp [he])]

theorem entries_ext {l m : List (String × ν)} (hl : l.Pairwise fun a b => a.1 < b.1)
    (hm : m.Pairwise fun a b => a.1 < b.1) (h : ∀ k, lookup k l = lookup k m) : l = m := by
  induction l generalizing m with
  | nil =>
    cases m with
    | nil => rfl
    | cons b t => have := h b.1; simp [lookup] at this
  | cons a r ih =>
    cases m with
    | nil => have := h a.1; simp [lookup] at this
    | cons b t =>
      have har := (List.pairwise_cons.1 hl).1
      have hbt := (List.pairwise_cons.1 hm).1
      have hk : a.1 = b.1 := by
        refine Classical.byContradiction fun hne => ?_
        by_cases hlt : a.1 < b.1
        · have h1 : lookup a.1 (b :: t) = none := lookup_eq_none_of_lt fun e he => by
            rcases List.mem_cons.1 he with rfl | he
            · exact hlt
            · exact String.lt_trans hlt (hbt e he)
          have := h a.1
          rw [h1] at this
          simp [lookup] at this
        · have hgt : b.1 < a.1 := Classical.byContradiction fun hn =>
            hne (String.le_antisymm (String.not_lt.1 hn) (String.not_lt.1 hlt))
          have h1 : lookup b.1 (a :: r) = none := lookup_eq_none_of_lt fun e he => by
            rcases List.mem_cons.1 he with rfl | he
            · exact hgt
            · exact String.lt_trans hgt (har e he)
          have := h b.1
          rw [h1] at this
          simp [lookup] at this
      have hv : a.2 = b.2 := by
        have := h a.1
        simpa [lookup, hk] using this
      have hrt : r = t := by
        refine ih (List.pairwise_cons.1 hl).2 (List.pairwise_cons.1 hm).2 fun k => ?_
        by_cases hka : k = a.1
        · subst hka
          rw [lookup_eq_none_of_lt har, lookup_eq_none_of_lt fun e he => hk ▸ hbt e he]
        · have := h k
          simpa [lookup, hka, hk ▸ hka] using this
      rw [Prod.ext hk hv, hrt]

theorem lookup_append (k : String) (l m : List (String × ν)) :
    lookup k (l ++ m) = (lookup k l).or (lookup k m) := by
  induction l with
  | nil => rfl
  | cons a r ih => by_cases h : k = a.1 <;> simp [lookup, h, ih]

/-- The values of the entries are those of their keys. -/
theorem lookup_reverse {l : List (String × ν)} (h : l.Pairwise fun a b => a.1 < b.1) (k : String) :
    lookup k l.reverse = lookup k l := by
  induction l with
  | nil => rfl
  | cons a r ih =>
    obtain ⟨ha, hr⟩ := List.pairwise_cons.mp h
    rw [List.reverse_cons, lookup_append, ih hr]
    by_cases hk : k = a.1
    · rw [hk, lookup_eq_none_of_lt ha]
      simp [lookup]
    · simp [lookup, hk]

/-- **Of a list the last entry of a key counts.** -/
theorem get?_ofList (l : List (String × ν)) (k : String) :
    (ofList l).get? k = lookup k l.reverse := by
  have hfoldl : ∀ (l : List (String × ν)) (d : Dict ν),
      (l.foldl (fun d e => d.set e.1 e.2) d).get? k = (lookup k l.reverse).or (d.get? k) := by
    intro l
    induction l with
    | nil => exact fun d => rfl
    | cons e r ih =>
      intro d
      rw [List.foldl_cons, ih, List.reverse_cons, lookup_append, get?_set, Option.or_assoc, lookup]
      by_cases hk : k = e.1 <;> simp [hk, lookup]
  rw [ofList, hfoldl, get?_empty, Option.or_none]

theorem isSome_get?_iff {d : Dict ν} {k : String} :
    (d.get? k).isSome = true ↔ k ∈ d.entries.map Prod.fst := by
  unfold get?
  induction d.entries with
  | nil => simp [lookup]
  | cons e r ih =>
    rw [lookup, List.map_cons, List.mem_cons, ← ih]
    by_cases h : k = e.1 <;> simp [h]

/-- No key occurs twice. -/
theorem nodup_keys (d : Dict ν) : (d.entries.map Prod.fst).Nodup :=
  List.pairwise_map.mpr (d.ascending.imp fun hlt => String.ne_of_lt hlt)

theorem ext_get? {d e : Dict ν} (h : ∀ k, d.get? k = e.get? k) : d = e := by
  have := entries_ext d.ascending e.ascending h
  cases d
  cases e
  simp_all

end Dict

end Routing
