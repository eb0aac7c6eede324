import Mathlib.Data.Set.Card
import Routing.Properties

/-!
# The algebra of properties

Properties are finite maps from names to values with two ways of putting them together: binding a
name and collecting a list let the last value of a name win, merging keeps the value on the left.
Both are told by the binding of each name, and since properties with the same bindings are equal,
merging is associative and idempotent with the empty properties as its unit, and collecting one list
after another is merging in the opposite order.

* `get?_merge`, `get?_collect`: the binding of a name.
* `foldl_keep_of_perm`: it does not matter in which order the other's bindings are gone through.
* `size_eq_ncard`: the size is the number of names that are bound.
* `value_eq_some_iff`, `value_eq_none_iff`, `value_eq_error_iff`: what is read under a kind.
* `merge_left_biased`: all of this together.
-/

namespace Routing.Properties

variable {p q r : Properties} {name : String}

/-- The properties with one more binding, unless the name is bound. -/
def keep (p : Properties) (e : String × Value) : Properties :=
  if Dict.contains p e.1 then p else Dict.set p e.1 e.2

theorem merge_eq_foldl (p q : Properties) : p.merge q = q.entries.foldl keep p := rfl

/-! ## The binding of a name -/

theorem get?_keep (p : Properties) (e : String × Value) (name : String) :
    Dict.get? (p.keep e) name = (Dict.get? p name).or (if name = e.1 then some e.2 else none) := by
  unfold keep Dict.contains
  by_cases hname : name = e.1
  · subst hname
    cases h : Dict.get? p e.1 with
    | none => simp
    | some v => simp [h]
  · split <;> simp [hname]

/-- Of the bindings that are gone through the first of a name is kept, if the name was unbound. -/
theorem get?_foldl_keep (l : List (String × Value)) (p : Properties) (name : String) :
    Dict.get? (l.foldl keep p) name = (Dict.get? p name).or (Dict.lookup name l) := by
  induction l generalizing p with
  | nil => exact (Option.or_none).symm
  | cons e l ih =>
    rw [List.foldl_cons, ih, get?_keep, Option.or_assoc, Dict.lookup]
    by_cases hname : name = e.1 <;> simp [hname]

/-- **A name is bound by the left properties**, or if they do not bind it by the right ones. -/
theorem get?_merge (p q : Properties) (name : String) :
    Dict.get? (p.merge q) name = (Dict.get? p name).or (Dict.get? q name) := by
  rw [merge_eq_foldl, get?_foldl_keep]
  rfl

/-- **A name is bound by its last item.** -/
theorem get?_collect (items : List (String × Value)) (name : String) :
    Dict.get? (collect items) name = Dict.lookup name items.reverse :=
  Dict.get?_ofList items name

/-- Where no name occurs twice, the order of the entries does not matter. -/
theorem lookup_of_perm {l m : List (String × Value)} (h : l.Perm m) (hl : (l.map Prod.fst).Nodup)
    (name : String) : Dict.lookup name l = Dict.lookup name m := by
  induction h with
  | nil => rfl
  | cons e _ ih =>
    have htail := (List.nodup_cons.mp hl).2
    rw [Dict.lookup, Dict.lookup, ih htail]
  | swap a b l =>
    have hne : b.1 ≠ a.1 := by
      intro heq
      exact (List.nodup_cons.mp hl).1 (by simp [heq])
    by_cases ha : name = a.1
    · have hb : name ≠ b.1 := by
        intro heq
        exact hne (heq.symm.trans ha)
      simp [Dict.lookup, ha, hne.symm]
    · simp [Dict.lookup, ha]
  | trans h₁ _ ih₁ ih₂ => rw [ih₁ hl, ih₂ ((h₁.map _).nodup_iff.mp hl)]

/-- **The order in which the right bindings are gone through does not matter.** -/
theorem foldl_keep_of_perm {l : List (String × Value)} (h : l.Perm q.entries) :
    l.foldl keep p = p.merge q := by
  refine Dict.ext_get? fun name => ?_
  have hl : (l.map Prod.fst).Nodup := (h.map _).nodup_iff.mpr q.nodup_keys
  rw [get?_merge, get?_foldl_keep, lookup_of_perm h hl]
  rfl

/-! ## Laws of merging -/

theorem merge_assoc (p q r : Properties) : (p.merge q).merge r = p.merge (q.merge r) := by
  refine Dict.ext_get? fun name => ?_
  simp only [get?_merge, Option.or_assoc]

theorem empty_merge (p : Properties) : empty.merge p = p := by
  refine Dict.ext_get? fun name => ?_
  rw [get?_merge, empty, Dict.get?_empty, Option.none_or]

theorem merge_empty (p : Properties) : p.merge empty = p := rfl

theorem merge_self (p : Properties) : p.merge p = p := by
  refine Dict.ext_get? fun name => ?_
  rw [get?_merge, Option.or_self]

/-- What is collected later is kept. -/
theorem collect_append (xs ys : List (String × Value)) :
    collect (xs ++ ys) = (collect ys).merge (collect xs) := by
  refine Dict.ext_get? fun name => ?_
  rw [get?_merge, get?_collect, get?_collect, get?_collect, List.reverse_append, Dict.lookup_append]

theorem insert_eq_merge (p : Properties) (name : String) (v : Value) :
    p.insert name v = (collect [(name, v)]).merge p := by
  refine Dict.ext_get? fun other => ?_
  rw [get?_merge, get?_collect, insert, Dict.get?_set]
  by_cases h : other = name <;> simp [Dict.lookup, h]

/-- All properties are collected from some list. -/
theorem collect_entries (p : Properties) : collect p.entries = p := by
  refine Dict.ext_get? fun name => ?_
  rw [get?_collect, Dict.lookup_reverse p.ascending]
  rfl

/-- **The size is the number of names that are bound.** -/
theorem size_eq_ncard (p : Properties) :
    Dict.size p = Set.ncard {name | (Dict.get? p name).isSome = true} := by
  have hnames : {name | (Dict.get? p name).isSome = true}
      = ((p.entries.map Prod.fst).toFinset : Set String) := by
    ext name
    rw [Set.mem_ofPred_eq, Dict.isSome_get?_iff, List.coe_toFinset]
    rfl
  rw [hnames, Set.ncard_coe_finset, List.toFinset_card_of_nodup p.nodup_keys, List.length_map]
  rfl

/-! ## Reading under a kind -/

theorem value_eq_none_iff {kind : Kind} :
    p.value kind name = .ok none ↔ Dict.get? p name = none := by
  unfold value
  cases Dict.get? p name with
  | none => simp
  | some v => by_cases h : v.kind = kind <;> simp [h]

theorem value_eq_some_iff {kind : Kind} {v : Value} :
    p.value kind name = .ok (some v) ↔ Dict.get? p name = some v ∧ v.kind = kind := by
  unfold value
  cases Dict.get? p name with
  | none => simp
  | some w =>
    by_cases h : w.kind = kind
    · simp only [h, if_true, Except.ok.injEq, Option.some.injEq]
      exact (and_iff_left_of_imp fun e => e ▸ h).symm
    · simp only [h, if_false, reduceCtorEq, Option.some.injEq, false_iff, not_and]
      exact fun e => e ▸ h

theorem value_eq_error_iff {kind : Kind} {e : PropertyError} :
    p.value kind name = .error e ↔
      ∃ v, Dict.get? p name = some v ∧ v.kind ≠ kind ∧ e = ⟨name, kind.name, v.kind.name⟩ := by
  unfold value
  cases Dict.get? p name with
  | none => simp
  | some v =>
    by_cases h : v.kind = kind
    · simp [h]
    · simp only [h, if_false, Except.error.injEq, Option.some.injEq, exists_eq_left', ne_eq,
        not_false_eq_true, true_and]
      exact eq_comm

theorem valueOr_eq_ok_iff {default v : Value} :
    p.valueOr name default = .ok v ↔
      (Dict.get? p name = none ∧ v = default) ∨
        (Dict.get? p name = some v ∧ v.kind = default.kind) := by
  rw [← @value_eq_none_iff p name default.kind, ← value_eq_some_iff]
  unfold valueOr
  rcases p.value default.kind name with e | _ | w <;> simp [eq_comm]

theorem valueOr_eq_error_iff {default : Value} {e : PropertyError} :
    p.valueOr name default = .error e ↔ p.value default.kind name = .error e := by
  unfold valueOr
  cases p.value default.kind name <;> simp

/-- **Properties are a left-biased algebra of maps.** A name that is bound on the left of a merge
keeps that value, and another one has that of the right. Merging is associative and idempotent, with
the empty properties as its unit; what is collected or bound later is merged on the left. All
properties are collected from some list, and their size is the number of names that are bound. What
is read under a kind is nothing iff the name is unbound, a value iff the name is bound to it and it
is of the kind, and else an error that names the property, the kind asked for and that of the value.
A default is for unbound names only. -/
theorem merge_left_biased (a b c : Properties) (xs ys : List (String × Value)) :
    (∀ name, Dict.get? (a.merge b) name = (Dict.get? a name).or (Dict.get? b name)) ∧
      (a.merge b).merge c = a.merge (b.merge c) ∧
      empty.merge a = a ∧ a.merge empty = a ∧ a.merge a = a ∧
      collect (xs ++ ys) = (collect ys).merge (collect xs) ∧
      (∀ name v, a.insert name v = (collect [(name, v)]).merge a) ∧
      collect a.entries = a ∧
      Dict.size a = Set.ncard {name | (Dict.get? a name).isSome = true} ∧
      ∀ name,
        (∀ kind, a.value kind name = .ok none ↔ Dict.get? a name = none) ∧
        (∀ kind v, a.value kind name = .ok (some v) ↔
          Dict.get? a name = some v ∧ v.kind = kind) ∧
        (∀ kind e, a.value kind name = .error e ↔ ∃ v, Dict.get? a name = some v ∧
          v.kind ≠ kind ∧ e = ⟨name, kind.name, v.kind.name⟩) ∧
        (∀ default v, a.valueOr name default = .ok v ↔
          (Dict.get? a name = none ∧ v = default) ∨
            (Dict.get? a name = some v ∧ v.kind = default.kind)) ∧
        ∀ default e, a.valueOr name default = .error e ↔
          a.value default.kind name = .error e :=
  ⟨get?_merge a b, merge_assoc a b c, empty_merge a, merge_empty a, merge_self a,
    collect_append xs ys, insert_eq_merge a, collect_entries a, size_eq_ncard a, fun _ =>
      ⟨fun _ => value_eq_none_iff, fun _ _ => value_eq_some_iff, fun _ _ => value_eq_error_iff,
        fun _ _ => valueOr_eq_ok_iff, fun _ _ => valueOr_eq_error_iff⟩⟩

end Routing.Properties
