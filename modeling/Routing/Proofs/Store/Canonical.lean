import Routing.Proofs.Forest.Same
import Routing.Proofs.Store.Registry

/-!
# The tree of a store is canonical

The tree of a store is determined by what is registered. No branch is without a handler, so that
there is a node exactly where a registered path leads through, and stores with the same
registrations have the same tree, the order of siblings and of handlers aside. An update leaves no
trace beyond what it registers.

* `exists_handler_below`: below every node there is a handler.
* `children_of_root_empty`: nothing is below the root of the empty path.
* `sameTree_iff_registrations`: the same tree is the same registrations.
* `run_canonical`: all of this after any updates, and what follows for updates that undo each other
  and for updates of different verbs or paths.
-/

namespace Routing

variable {H : Type}

/-- The same handlers by verb, in whatever order. -/
def Handlers.Same (hs hs' : Handlers H) : Prop :=
  ∀ v, hs.get? v = hs'.get? v

namespace Store

/-- The same tree, the order of siblings and of handlers aside. -/
def SameTree (s s' : Store H) : Prop :=
  Forest.Same Handlers.Same s.nodes s'.nodes

/-- What is registered: trimmed paths, verbs and handlers. -/
def registrations (s : Store H) : Set (String × Verb × H) :=
  {r | Target.trimSlashes r.1 = r.1 ∧ s.get? r.2.1 r.1 = some r.2.2}

/-- The trimmed path and the verb that an update concerns, unless it concerns all. -/
def Op.pair? : Op H → Option (String × Verb)
  | .add v path _ => some (Target.trimSlashes path, v)
  | .remove v path => some (Target.trimSlashes path, v)
  | .clear => none

/-! ## Registries -/

namespace Registry

/-- An update changes nothing at other pairs. -/
theorem lookup_apply_of_ne (M : Registry H) {op : Op H} {p k : String × Verb}
    (hp : op.pair? = some p) (hk : k ≠ p) : (M.apply op).lookup k = M.lookup k := by
  cases op with
  | add v path h =>
    obtain rfl := Option.some.inj hp
    rw [lookup_apply_add, if_neg hk]
  | remove v path =>
    obtain rfl := Option.some.inj hp
    rw [lookup_apply_remove, if_neg hk]
  | clear => exact absurd hp (by simp [Op.pair?])

/-- What an update leaves at its own pair does not depend on what was there. -/
theorem lookup_apply_self (M N : Registry H) {op : Op H} {p : String × Verb}
    (hp : op.pair? = some p) : (M.apply op).lookup p = (N.apply op).lookup p := by
  cases op with
  | add v path h =>
    obtain rfl := Option.some.inj hp
    rw [lookup_apply_add, lookup_apply_add, if_pos rfl, if_pos rfl]
  | remove v path =>
    obtain rfl := Option.some.inj hp
    rw [lookup_apply_remove, lookup_apply_remove, if_pos rfl, if_pos rfl]
  | clear => exact absurd hp (by simp [Op.pair?])

/-- **Updates of different pairs commute.** -/
theorem apply_comm (M : Registry H) {a b : Op H} {p q : String × Verb} (ha : a.pair? = some p)
    (hb : b.pair? = some q) (hpq : p ≠ q) : (M.apply a).apply b = (M.apply b).apply a := by
  refine Finmap.ext_lookup fun k => ?_
  by_cases hkp : k = p
  · subst hkp
    rw [lookup_apply_of_ne _ hb hpq]
    exact lookup_apply_self _ _ ha
  · rw [lookup_apply_of_ne (M.apply b) ha hkp]
    by_cases hkq : k = q
    · subst hkq
      exact lookup_apply_self _ _ hb
    · rw [lookup_apply_of_ne _ hb hkq, lookup_apply_of_ne _ ha hkp, lookup_apply_of_ne _ hb hkq]

/-- Withdrawing what is not registered changes nothing. -/
theorem apply_remove_of_lookup (M : Registry H) {v : Verb} {path : String}
    (h : M.lookup (Target.trimSlashes path, v) = none) : M.apply (.remove v path) = M := by
  refine Finmap.ext_lookup fun k => ?_
  rw [lookup_apply_remove]
  split
  · rename_i hk
    rw [hk, h]
  · rfl

/-- A registration of a new pair is undone by withdrawing it. -/
theorem apply_add_remove (M : Registry H) {v : Verb} {path : String} (h : H)
    (hnew : M.lookup (Target.trimSlashes path, v) = none) :
    (M.apply (.add v path h)).apply (.remove v path) = M := by
  refine Finmap.ext_lookup fun k => ?_
  rw [lookup_apply_remove, lookup_apply_add]
  split
  · rename_i hk
    rw [hk, hnew]
  · rfl

end Registry

/-! ## The nodes of a store -/

variable {s s' : Store H} {M M' : Registry H}

/-- **Below every node there is a handler.** -/
theorem exists_handler_below (hs : Represents s M) {k : String} {ks : List String}
    {hs' : Handlers H} (hv : s.nodes.value? k ks = some hs') :
    ∃ js v h, (s.nodes.valueD Handlers.none k (ks ++ js)).get? v = some h := by
  obtain ⟨js, hjs⟩ := Forest.exists_value_below Handlers.none hs.pruned hv
  have hsome : ¬ ∀ v, (s.nodes.valueD Handlers.none k (ks ++ js)).get? v = none := fun hnone => by
    rw [Handlers.isEmpty_iff.mpr hnone] at hjs
    exact absurd hjs (by simp)
  obtain ⟨v, hv⟩ := Classical.not_forall.mp hsome
  obtain ⟨h, hh⟩ := Option.ne_none_iff_exists'.mp hv
  exact ⟨js, v, h, hh⟩

/-- A trimmed path starts with an empty segment only if it is empty. -/
theorem pathKey_snd_of_fst {path : String} (h : (pathKey path).1 = "") :
    (pathKey path).2 = [] := by
  unfold pathKey at h ⊢
  cases htrim : (Target.trimSlashes path).toList with
  | nil => simp [Text.splitText, Text.split, htrim]
  | cons c r =>
    have hc : c ≠ '/' := by
      have hne : Target.isSlash c = false := by
        refine Text.head?_trim Target.isSlash path.toList c ?_
        rw [Target.trimSlashes, Text.trimText, String.toList_ofList] at htrim
        rw [htrim]
        rfl
      simpa [Target.isSlash] using hne
    obtain ⟨p, ps, -, hsplit⟩ := Text.split_cons_of_ne hc r
    rw [Text.splitText, htrim, hsplit] at h
    simp at h

/-- **Nothing is below the root of the empty path.** -/
theorem children_of_root_empty (hs : Represents s M) {hs' : Handlers H}
    {cs : Forest String (Handlers H)} (hr : s.nodes.root? "" = some (hs', cs)) : cs = .nil := by
  obtain ⟨-, hpruned⟩ := Forest.pruned_of_root? hs.pruned hr
  cases hcs : cs.isEmpty with
  | true =>
    cases cs with
    | nil => rfl
    | node => exact absurd hcs (by simp [Forest.isEmpty])
  | false =>
    obtain ⟨j, js, hj⟩ := Forest.exists_value_of_pruned Handlers.none hpruned hcs
    rw [← Forest.valueD_cons_of_root? _ hr] at hj
    obtain ⟨path, hpath⟩ := hs.keyed "" (j :: js) hj
    have hkey : (pathKey path).1 = "" := by rw [hpath]
    have hrest := pathKey_snd_of_fst hkey
    rw [hpath] at hrest
    exact absurd hrest (by simp)

/-! ## The same tree -/

/-- At the same path in stores of one registry are the same handlers. -/
theorem get?_valueD_congr (hs : Represents s M) (hs' : Represents s' M) {k : String}
    {ks : List String} (h : (s.nodes.valueD Handlers.none k ks).isEmpty = false) (v : Verb) :
    (s.nodes.valueD Handlers.none k ks).get? v = (s'.nodes.valueD Handlers.none k ks).get? v := by
  obtain ⟨path, hpath⟩ := hs.keyed k ks h
  have hget := hs.get?_eq v path
  rw [← hs'.get?_eq v path, get?, get?, hpath] at hget
  exact hget

theorem same_valueD (hs : Represents s M) (hs' : Represents s' M) (k : String)
    (ks : List String) :
    Handlers.Same (s.nodes.valueD Handlers.none k ks) (s'.nodes.valueD Handlers.none k ks) := by
  intro v
  cases hv : (s.nodes.valueD Handlers.none k ks).isEmpty with
  | false => exact get?_valueD_congr hs hs' hv v
  | true =>
    cases hv' : (s'.nodes.valueD Handlers.none k ks).isEmpty with
    | false => exact (get?_valueD_congr hs' hs hv' v).symm
    | true => rw [Handlers.isEmpty_iff.mp hv, Handlers.isEmpty_iff.mp hv']

theorem isEmpty_congr {hs hs' : Handlers H} (h : hs.Same hs') : hs.isEmpty = hs'.isEmpty := by
  rw [Bool.eq_iff_iff, Handlers.isEmpty_iff, Handlers.isEmpty_iff]
  exact forall_congr' fun v => by rw [h v]

/-- Stores have the same tree iff they represent the same registry. -/
theorem sameTree_iff (hs : Represents s M) (hs' : Represents s' M') :
    SameTree s s' ↔ M = M' := by
  have hblank : (Handlers.none : Handlers H).isEmpty = true := rfl
  unfold SameTree
  rw [Forest.same_iff_valueD Handlers.none (fun _ => rfl) hblank
    (fun _ _ => isEmpty_congr) hs.pruned hs'.pruned]
  constructor
  · intro hall
    have hget : ∀ v path, s.get? v path = s'.get? v path := fun v path => hall _ _ v
    refine Finmap.ext_lookup fun k => ?_
    by_cases htrim : Target.trimSlashes k.1 = k.1
    · have := hget k.2 k.1
      rwa [hs.get?_eq, hs'.get?_eq, htrim] at this
    · rw [Finmap.lookup_eq_none.mpr fun hk => htrim (hs.trimmed k hk),
        Finmap.lookup_eq_none.mpr fun hk => htrim (hs'.trimmed k hk)]
  · rintro rfl
    exact same_valueD hs hs'

theorem mem_registrations (hs : Represents s M) {path : String} {v : Verb} {h : H} :
    (path, v, h) ∈ s.registrations ↔ M.lookup (path, v) = some h := by
  unfold registrations
  rw [Set.mem_ofPred_eq, hs.get?_eq]
  constructor
  · rintro ⟨htrim, hget⟩
    rwa [htrim] at hget
  · intro hget
    have htrim : Target.trimSlashes path = path :=
      hs.trimmed (path, v) (Finmap.mem_of_lookup_eq_some hget)
    rw [htrim]
    exact ⟨rfl, hget⟩

/-- **The same tree is the same registrations.** -/
theorem sameTree_iff_registrations (hs : Represents s M) (hs' : Represents s' M') :
    SameTree s s' ↔ s.registrations = s'.registrations := by
  rw [sameTree_iff hs hs']
  constructor
  · rintro rfl
    ext ⟨path, v, h⟩
    rw [mem_registrations hs, mem_registrations hs']
  · intro heq
    refine Finmap.ext_lookup fun k => Option.ext fun h => ?_
    rw [← mem_registrations hs, heq, mem_registrations hs']

/-! ## Runs -/

/-- **The tree of a store is canonical.** After any updates below any base path there is a handler
below every node and nothing below the root of the empty path, and the tree is the same as after
any updates with the same registrations. Withdrawing what is not registered leaves the tree as it
is, also after registering it; and updates of different verbs or trimmed paths may come in either
order, and withdrawals hand out the same. -/
theorem run_canonical (base : String) (ops : List (Op H)) :
    let s := run base ops
    (∀ k ks hs, s.nodes.value? k ks = some hs →
        ∃ js v h, (s.nodes.valueD Handlers.none k (ks ++ js)).get? v = some h) ∧
      (∀ hs cs, s.nodes.root? "" = some (hs, cs) → cs = .nil) ∧
      (∀ base' ops', SameTree s (run base' ops')
        ↔ s.registrations = (run base' ops').registrations) ∧
      (∀ v path, s.get? v path = none → SameTree (s.remove v path).2 s ∧
        ∀ h, SameTree ((s.add v path h).remove v path).2 s) ∧
      ∀ a b p q, a.pair? = some p → b.pair? = some q → p ≠ q →
        SameTree ((s.apply a).apply b) ((s.apply b).apply a) ∧
        ∀ v path, b = .remove v path → ((s.apply a).remove v path).1 = (s.remove v path).1 := by
  intro s
  have hs : Represents s (Registry.run ops) := represents_run base ops
  refine ⟨fun k ks hs' => exists_handler_below hs, fun hs' cs => children_of_root_empty hs,
    fun base' ops' => sameTree_iff_registrations hs (represents_run base' ops'), ?_, ?_⟩
  · intro v path hnew
    rw [hs.get?_eq] at hnew
    refine ⟨?_, fun h => ?_⟩
    · exact (sameTree_iff (represents_apply hs (.remove v path)) hs).mpr
        (Registry.apply_remove_of_lookup _ hnew)
    · exact (sameTree_iff (represents_apply (represents_apply hs (.add v path h)) (.remove v path))
        hs).mpr (Registry.apply_add_remove _ h hnew)
  · intro a b p q ha hb hpq
    refine ⟨?_, ?_⟩
    · exact (sameTree_iff (represents_apply (represents_apply hs a) b)
        (represents_apply (represents_apply hs b) a)).mpr (Registry.apply_comm _ ha hb hpq)
    · rintro v path rfl
      obtain rfl := Option.some.inj hb
      show (s.apply a).get? v path = s.get? v path
      rw [(represents_apply hs a).get?_eq, hs.get?_eq]
      exact Registry.lookup_apply_of_ne _ ha (Ne.symm hpq)

/-- The node of `a` has lost its handler and stays for the one below it; an attempt to withdraw
again changes nothing, and another verb at the same path is another registration. -/
theorem run_canonical_withdrawn :
    let s : Store Nat :=
      run "svc" [.add .any "/a/b/" 1, .add (.exact .get) "a" 2, .remove (.exact .get) "/a"]
    (s.nodes.value? "a" [] = some Handlers.none ∧
        ∃ js v h, (s.nodes.valueD Handlers.none "a" ([] ++ js)).get? v = some h) ∧
      (s.get? (.exact .get) "a" = none ∧ SameTree (s.remove (.exact .get) "a").2 s) ∧
      (Op.pair? (.remove .any "a/b" : Op Nat) = some ("a/b", .any) ∧
        SameTree ((s.apply (.add (.exact .get) "a/b" 3)).apply (.remove .any "a/b"))
          ((s.apply (.remove .any "a/b")).apply (.add (.exact .get) "a/b" 3))) := by
  intro s
  obtain ⟨hbelow, -, -, hundo, hcomm⟩ := run_canonical "svc"
    ([.add .any "/a/b/" 1, .add (.exact .get) "a" 2, .remove (.exact .get) "/a"] : List (Op Nat))
  have hnode : s.nodes.value? "a" [] = some Handlers.none := rfl
  have hgone : s.get? (.exact .get) "a" = none := rfl
  have hpair : Op.pair? (.remove .any "a/b" : Op Nat) = some ("a/b", .any) := by decide
  have hpair' : Op.pair? (.add (.exact .get) "a/b" 3 : Op Nat) = some ("a/b", .exact .get) := by
    decide
  refine ⟨⟨hnode, hbelow _ _ _ hnode⟩, ⟨hgone, (hundo _ _ hgone).1⟩, hpair, ?_⟩
  exact (hcomm _ _ _ _ hpair' hpair (by decide)).1

end Store

end Routing
