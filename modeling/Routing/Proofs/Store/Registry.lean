import Mathlib.Data.Finmap
import Routing.Proofs.Forest.Pruned
import Routing.Proofs.Http.Target
import Routing.Store

/-!
# The store as a finite map

A store is updated by registrations and withdrawals. Slashes at the ends of a path do not count, so
what the updates leave behind is a finite map from trimmed paths and verbs to handlers: the
registry of the run. `Represents s M` says that the store `s` holds the registrations of `M` and
nothing else; each update keeps it (`represents_apply`), so it holds after every run
(`represents_run`).

* `isEmpty_iff`: a store is empty iff its registry is.
* `select_of_represents`: what a node of the store has for a method is what the registry has for
  the path of the node.
-/

namespace Routing.Store

variable {H : Type}

/-- An update of a store. -/
inductive Op (H : Type) where
  /-- Registers a handler; under `Verb.any` it is one for all methods. -/
  | add (v : Verb) (path : String) (h : H)
  /-- Takes a registration away. -/
  | remove (v : Verb) (path : String)
  /-- Takes all registrations away. -/
  | clear

/-- The store after an update. -/
def apply (s : Store H) : Op H → Store H
  | .add v path h => s.add v path h
  | .remove v path => (s.remove v path).2
  | .clear => s.clear

/-- The store below a base path after updates. -/
def run (base : String) (ops : List (Op H)) : Store H :=
  ops.foldl apply (withBase base)

/-- Handlers by trimmed path and verb. -/
abbrev Registry (H : Type) := Finmap fun _ : String × Verb => H

namespace Registry

/-- The registry after an update. -/
def apply (M : Registry H) : Op H → Registry H
  | .add v path h => M.insert (Target.trimSlashes path, v) h
  | .remove v path => M.erase (Target.trimSlashes path, v)
  | .clear => ∅

/-- What updates leave registered. -/
def run (ops : List (Op H)) : Registry H :=
  ops.foldl apply ∅

/-- The handler registered at a path for a method: that of the method itself, or else that of all
methods. -/
def pick (M : Registry H) (m : Method) (path : String) : Option H :=
  (M.lookup (path, .exact m)).or (M.lookup (path, .any))

theorem lookup_apply_add (M : Registry H) (v : Verb) (path : String) (h : H) (k : String × Verb) :
    (M.apply (.add v path h)).lookup k
      = if k = (Target.trimSlashes path, v) then some h else M.lookup k := by
  by_cases hk : k = (Target.trimSlashes path, v)
  · rw [if_pos hk, hk]
    exact Finmap.lookup_insert M
  · rw [if_neg hk]
    exact Finmap.lookup_insert_of_ne M hk

theorem lookup_apply_remove (M : Registry H) (v : Verb) (path : String) (k : String × Verb) :
    (M.apply (.remove v path)).lookup k
      = if k = (Target.trimSlashes path, v) then none else M.lookup k := by
  by_cases hk : k = (Target.trimSlashes path, v)
  · rw [if_pos hk, hk]
    exact Finmap.lookup_erase _ M
  · rw [if_neg hk]
    exact Finmap.lookup_erase_ne hk

/-- Where a handler is chosen one is registered. -/
theorem exists_mem_of_pick {M : Registry H} {m : Method} {path : String}
    (h : (M.pick m path).isSome = true) : ∃ v, (path, v) ∈ M := by
  rw [pick, Option.isSome_or, Bool.or_eq_true, Finmap.lookup_isSome, Finmap.lookup_isSome] at h
  exact h.elim (fun h => ⟨_, h⟩) fun h => ⟨_, h⟩

end Registry

/-! ## Keys of paths -/

/-- Two paths have one key iff they differ in slashes at their ends only. -/
theorem pathKey_eq_iff {p q : String} :
    pathKey p = pathKey q ↔ Target.trimSlashes p = Target.trimSlashes q := by
  unfold pathKey
  constructor
  · intro h
    apply Text.splitText_injective (c := '/')
    cases hp : Text.splitText '/' (Target.trimSlashes p) with
    | nil => exact absurd hp (Text.splitText_ne_nil _ _)
    | cons k ks =>
      cases hq : Text.splitText '/' (Target.trimSlashes q) with
      | nil => exact absurd hq (Text.splitText_ne_nil _ _)
      | cons j js =>
        rw [hp, hq] at h
        obtain ⟨rfl, rfl⟩ := Prod.mk.inj h
        rfl
  · intro h
    rw [h]

/-- The key of a path without empty segments is the list of its segments. -/
theorem pathKey_ofList {c : List Char} (h : [] ∉ Text.split '/' c) {k : String}
    {ks : List String} (hc : (Text.split '/' c).map String.ofList = k :: ks) :
    pathKey (String.ofList c) = (k, ks) := by
  unfold pathKey
  rw [Target.trimSlashes_ofList_of_split h, Text.splitText, String.toList_ofList, hc]

/-! ## Updates -/

/-- The store holds the registrations of `M` and nothing else. -/
structure Represents (s : Store H) (M : Registry H) : Prop where
  /-- At every path is what `M` has for the trimmed path. -/
  get?_eq : ∀ v path, s.get? v path = M.lookup (Target.trimSlashes path, v)
  /-- Only trimmed paths are in `M`. -/
  trimmed : ∀ k ∈ M, Target.trimSlashes k.1 = k.1
  /-- No branch of the store is without a handler. -/
  pruned : s.nodes.Pruned Handlers.isEmpty
  /-- Handlers are at the keys of paths only. -/
  keyed : ∀ k ks, (s.nodes.valueD Handlers.none k ks).isEmpty = false →
    ∃ path, pathKey path = (k, ks)

theorem represents_empty (base : String) :
    Represents (⟨base, .nil, trivial⟩ : Store H) ∅ where
  get?_eq _ _ := rfl
  trimmed _ hk := absurd hk Finmap.notMem_empty
  pruned := trivial
  keyed _ _ h := absurd h (by simp [Handlers.isEmpty, Handlers.none])

variable {s : Store H} {M : Registry H}

theorem represents_add (hs : Represents s M) (v : Verb) (path : String) (h : H) :
    Represents (s.add v path h) (M.insert (Target.trimSlashes path, v) h) where
  get?_eq w q := by
    rw [get?_add]
    by_cases hwq : w = v ∧ pathKey q = pathKey path
    · rw [if_pos hwq, hwq.1, pathKey_eq_iff.mp hwq.2, Finmap.lookup_insert]
    · rw [if_neg hwq, hs.get?_eq, Finmap.lookup_insert_of_ne]
      intro e
      obtain ⟨hq, hw⟩ := Prod.mk.inj e
      exact hwq ⟨hw, pathKey_eq_iff.mpr hq⟩
  trimmed k hk := by
    rcases Finmap.mem_insert.mp hk with rfl | hk
    · exact Target.trimSlashes_trimSlashes path
    · exact hs.trimmed k hk
  pruned := Forest.pruned_insert (fun hs => Handlers.isEmpty_set hs v h) _ _ hs.pruned
  keyed k ks hk := by
    by_cases hkey : k = (pathKey path).1 ∧ ks = (pathKey path).2
    · exact ⟨path, Prod.ext hkey.1.symm hkey.2.symm⟩
    · refine hs.keyed k ks ?_
      simpa only [add, Forest.valueD_insert, if_neg hkey] using hk

theorem represents_remove (hs : Represents s M) (v : Verb) (path : String) :
    Represents (s.remove v path).2 (M.erase (Target.trimSlashes path, v)) where
  get?_eq w q := by
    rw [get?_remove]
    by_cases hwq : w = v ∧ pathKey q = pathKey path
    · rw [if_pos hwq, hwq.1, pathKey_eq_iff.mp hwq.2, Finmap.lookup_erase]
    · rw [if_neg hwq, hs.get?_eq, Finmap.lookup_erase_ne]
      intro e
      obtain ⟨hq, hw⟩ := Prod.mk.inj e
      exact hwq ⟨hw, pathKey_eq_iff.mpr hq⟩
  trimmed k hk := hs.trimmed k (Finmap.mem_erase.mp hk).2
  pruned := Forest.pruned_erase _ _ hs.pruned
  keyed k ks hk := by
    by_cases hkey : k = (pathKey path).1 ∧ ks = (pathKey path).2
    · exact ⟨path, Prod.ext hkey.1.symm hkey.2.symm⟩
    · refine hs.keyed k ks ?_
      have hvalue := Forest.valueD_erase (f := fun hs : Handlers H => hs.erase v)
        (fun _ => Handlers.eq_none_of_isEmpty) rfl s.distinct
        (pathKey path).1 (pathKey path).2 k ks
      rw [if_neg hkey] at hvalue
      rw [← hvalue]
      exact hk

/-- **One step**: an update of the store is the update of its registry. -/
theorem represents_apply (hs : Represents s M) (op : Op H) :
    Represents (s.apply op) (M.apply op) := by
  cases op with
  | add v path h => exact represents_add hs v path h
  | remove v path => exact represents_remove hs v path
  | clear => exact represents_empty s.base

theorem represents_foldl (ops : List (Op H)) (hs : Represents s M) :
    Represents (ops.foldl apply s) (ops.foldl Registry.apply M) := by
  induction ops generalizing s M with
  | nil => exact hs
  | cons op ops ih => exact ih (represents_apply hs op)

/-- **A whole run**: after any updates the store holds what they leave registered. -/
theorem represents_run (base : String) (ops : List (Op H)) :
    Represents (run base ops) (Registry.run ops) :=
  represents_foldl ops (represents_empty _)

theorem base_foldl (ops : List (Op H)) (s : Store H) : (ops.foldl apply s).base = s.base := by
  induction ops generalizing s with
  | nil => rfl
  | cons op ops ih =>
    rw [List.foldl_cons, ih]
    cases op <;> rfl

theorem base_run (base : String) (ops : List (Op H)) :
    (run base ops).base = Target.trimSlashes base :=
  base_foldl ops _

/-! ## Reading the store -/

/-- **A store is empty iff nothing is registered.** -/
theorem isEmpty_iff (hs : Represents s M) : s.isEmpty = true ↔ M = ∅ := by
  have hblank : (Handlers.none : Handlers H).isEmpty = true := rfl
  unfold isEmpty
  rw [Forest.isEmpty_iff_of_pruned hblank hs.pruned]
  constructor
  · intro hall
    refine Finmap.ext_lookup fun k => ?_
    rw [Finmap.lookup_empty, Finmap.lookup_eq_none]
    intro hk
    have hget := hs.get?_eq k.2 k.1
    rw [hs.trimmed k hk, get?, Handlers.isEmpty_iff.mp (hall _ _)] at hget
    exact Finmap.lookup_eq_none.mp hget.symm hk
  · rintro rfl k ks
    cases hv : (s.nodes.valueD Handlers.none k ks).isEmpty with
    | true => rfl
    | false =>
      obtain ⟨path, hpath⟩ := hs.keyed k ks hv
      have hnone : ∀ v, (s.nodes.valueD Handlers.none k ks).get? v = none := fun v => by
        have hget := hs.get?_eq v path
        rw [get?, hpath, Finmap.lookup_empty] at hget
        exact hget
      rw [Handlers.isEmpty_iff.mpr hnone] at hv
      exact absurd hv (by simp)

theorem select_eq_pick {hs : Handlers H} {path : String}
    (h : ∀ v, hs.get? v = M.lookup (path, v)) (m : Method) : hs.select m = M.pick m path := by
  unfold Handlers.select Registry.pick
  rw [h, h]
  cases M.lookup (path, Verb.exact m) <;> rfl

/-- At the node of a path without empty segments is what is registered for the path. -/
theorem select_of_represents (hs : Represents s M) (m : Method) {c : List Char}
    (hc : [] ∉ Text.split '/' c) {k : String} {ks : List String}
    (hk : (Text.split '/' c).map String.ofList = k :: ks) :
    (s.nodes.valueD Handlers.none k ks).select m = M.pick m (String.ofList c) := by
  refine select_eq_pick (fun v => ?_) m
  have hget := hs.get?_eq v (String.ofList c)
  rwa [get?, pathKey_ofList hc hk, Target.trimSlashes_ofList_of_split hc] at hget

/-- At the node of the empty path is what is registered for it. -/
theorem select_empty_of_represents (hs : Represents s M) (m : Method) :
    (s.nodes.valueD Handlers.none "" []).select m = M.pick m "" :=
  select_eq_pick (fun v => hs.get?_eq v "") m

end Routing.Store
