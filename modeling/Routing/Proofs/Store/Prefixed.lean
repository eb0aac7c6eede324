import Routing.Proofs.Store.LongestPrefix

/-!
# A base path is a prefix of every registration

A store below a base path finds what a store without one finds in which everything is registered
below that path. The first takes the base path off a target and looks at what is left; the second
walks over it as over any other segments, and finds a handler of the empty path where the path
itself is registered. They differ in one place: on the base path itself, with at most a slash behind
it, nothing is left of the target for the first, and it does not answer.

* `below_run`: the registry of the second store is that of the first, moved below the base path.
* `longest_of_below`: and so are the longest candidates.
* `lookup_prefixed`: what the two stores answer.
-/

namespace Routing

/-! ## Paths below a base path -/

namespace Target

/-- A trimmed path below a base path. -/
def below (base path : String) : String :=
  if path = "" then base else base ++ "/" ++ path

theorem below_empty (base : String) : below base "" = base :=
  if_pos rfl

theorem toList_below_of_ne (base : String) {path : String} (h : path ≠ "") :
    (below base path).toList = base.toList ++ '/' :: path.toList := by
  rw [below, if_neg h, String.toList_append, String.toList_append, List.append_assoc]
  rfl

theorem below_ne_self (base : String) {path : String} (h : path ≠ "") :
    below base path ≠ base := by
  intro e
  have hlist := congrArg String.toList e
  rw [toList_below_of_ne base h] at hlist
  exact absurd hlist (by simp)

theorem below_injective {base p q : String} (h : below base p = below base q) : p = q := by
  by_cases hp : p = ""
  · by_cases hq : q = ""
    · rw [hp, hq]
    · rw [hp, below_empty] at h
      exact absurd h.symm (below_ne_self base hq)
  · by_cases hq : q = ""
    · rw [hq, below_empty] at h
      exact absurd h (below_ne_self base hp)
    · have hlist := congrArg String.toList h
      rw [toList_below_of_ne base hp, toList_below_of_ne base hq,
        List.append_cancel_left_eq] at hlist
      exact String.toList_inj.mp (List.cons.inj hlist).2

/-- Of a slash behind a trimmed text nothing is left unless a trimmed text follows. -/
theorem trim_append_slash {b q : List Char} (hb : Text.trim isSlash b = b) (hne : b ≠ [])
    (hq : Text.trim isSlash q = q) :
    Text.trim isSlash (b ++ '/' :: q) = if q = [] then b else b ++ '/' :: q := by
  have hhead : ∀ c ∈ b.head?, isSlash c = false := hb ▸ Text.head?_trim isSlash b
  have hstart : ∀ c ∈ (b ++ '/' :: q).head?, isSlash c = false := by
    rwa [List.head?_append_of_ne_nil b hne]
  split
  next h =>
    have hend : Text.trimEnd isSlash (b ++ ['/']) = Text.trimEnd isSlash b := by
      simp [Text.trimEnd, isSlash]
    rw [h, Text.trim, Text.trimStart_eq_self (h ▸ hstart), hend]
    rwa [Text.trim, Text.trimStart_eq_self hhead] at hb
  next h =>
    refine Text.trim_eq_self hstart fun c hc => ?_
    rw [List.getLast?_append_cons, List.getLast?_cons_of_ne_nil h, ← hq] at hc
    exact Text.getLast?_trimEnd isSlash _ c hc

end Target

namespace Store

variable {H : Type}

/-- An update of what is below a base path. -/
def Op.below (base : String) : Op H → Op H
  | .add v path h => .add v (base ++ "/" ++ Target.trimSlashes path) h
  | .remove v path => .remove v (base ++ "/" ++ Target.trimSlashes path)
  | .clear => .clear

/-- `N` holds the registrations of `M`, below a base path, and nothing else. -/
structure Registry.Below (base : String) (M N : Registry H) : Prop where
  lookup : ∀ path v, Target.trimSlashes path = path →
    N.lookup (Target.below base path, v) = M.lookup (path, v)
  keys : ∀ k ∈ N, ∃ path, Target.trimSlashes path = path ∧ k.1 = Target.below base path

namespace Registry

variable {base : String} {M N : Registry H}

theorem below_nil (base : String) : Below base (∅ : Registry H) ∅ where
  lookup _ _ _ := rfl
  keys _ hk := absurd hk Finmap.notMem_empty

theorem trimSlashes_prefixed (hbase : [] ∉ Text.split '/' base.toList) (path : String) :
    Target.trimSlashes (base ++ "/" ++ Target.trimSlashes path)
      = Target.below base (Target.trimSlashes path) := by
  have hne : base.toList ≠ [] := fun e => hbase (by rw [e]; simp [Text.split])
  have htrim : Text.trim Target.isSlash (Target.trimSlashes path).toList
      = (Target.trimSlashes path).toList := by
    rw [Target.trimSlashes, Text.trimText, String.toList_ofList, Text.trim_trim]
  have hlist : (base ++ "/" ++ Target.trimSlashes path).toList
      = base.toList ++ '/' :: (Target.trimSlashes path).toList := by
    rw [String.toList_append, String.toList_append, List.append_assoc]
    rfl
  rw [Target.trimSlashes.eq_def (base ++ "/" ++ _), Text.trimText, hlist,
    Target.trim_append_slash (Target.trim_eq_self_of_split hbase) hne htrim, Target.below]
  split
  next h => rw [if_pos (String.toList_eq_nil_iff.mp h), String.ofList_toList]
  next h => rw [if_neg (mt String.toList_eq_nil_iff.mpr h), ← hlist, String.ofList_toList]

theorem below_pair_iff {p q : String} {v w : Verb} :
    (Target.below base p, v) = (Target.below base q, w) ↔ (p, v) = (q, w) := by
  rw [Prod.mk.injEq, Prod.mk.injEq]
  exact and_congr_left fun _ => ⟨Target.below_injective, congrArg _⟩

/-- **One update** below a base path. -/
theorem below_apply (hbase : [] ∉ Text.split '/' base.toList) (h : Below base M N) (op : Op H) :
    Below base (M.apply op) (N.apply (op.below base)) := by
  cases op with
  | add v path g =>
    have hkey := trimSlashes_prefixed hbase path
    refine ⟨fun q w hq => ?_, fun k hk => ?_⟩
    · rw [Op.below, lookup_apply_add, lookup_apply_add, hkey, h.lookup q w hq]
      simp only [below_pair_iff]
    · rcases Finmap.mem_insert.mp hk with rfl | hk
      · exact ⟨_, Target.trimSlashes_trimSlashes path, hkey⟩
      · exact h.keys k hk
  | remove v path =>
    refine ⟨fun q w hq => ?_, fun k hk => h.keys k (Finmap.mem_erase.mp hk).2⟩
    rw [Op.below, lookup_apply_remove, lookup_apply_remove, trimSlashes_prefixed hbase path,
      h.lookup q w hq]
    simp only [below_pair_iff]
  | clear => exact below_nil base

/-- **A whole run** below a base path. -/
theorem below_run (hbase : [] ∉ Text.split '/' base.toList) (ops : List (Op H)) :
    Below base (run ops) (run (ops.map (Op.below base))) := by
  induction ops using List.reverseRecOn with
  | nil => exact below_nil base
  | append_singleton ops op ih =>
    unfold run at ih ⊢
    rw [List.map_append, List.foldl_append, List.foldl_append]
    exact below_apply hbase ih op

/-! ## Candidates below a base path -/

variable {m : Method}

theorem pick_below (h : Below base M N) {path : String} (hpath : Target.trimSlashes path = path) :
    N.pick m (Target.below base path) = M.pick m path := by
  rw [pick, pick, h.lookup path _ hpath, h.lookup path _ hpath]

theorem ofList_below (base : String) {c : List Char} (hc : c ≠ []) :
    String.ofList (base.toList ++ '/' :: c) = Target.below base (String.ofList c) := by
  have hne : String.ofList c ≠ "" := mt String.ofList_eq_empty_iff.mp hc
  rw [← String.toList_inj, Target.toList_below_of_ne base hne, String.toList_ofList,
    String.toList_ofList]

theorem ne_nil_of_split {c : List Char} (h : [] ∉ Text.split '/' c) : c ≠ [] := by
  rintro rfl
  exact h (by simp [Text.split])

theorem drop_below (b p c : List Char) : (b ++ '/' :: p).drop (b ++ '/' :: c).length
    = p.drop c.length := by
  rw [List.length_append, ← List.drop_drop, List.drop_left, List.length_cons, List.drop_succ_cons]

theorem candidate_below_iff (h : Below base M N) (hplain : Target.Plain base.toList)
    (hbase : [] ∉ Text.split '/' base.toList) {p c : List Char} :
    N.Candidate m (base.toList ++ '/' :: p) (base.toList ++ '/' :: c) ↔ M.Candidate m p c := by
  have hsplit : [] ∉ Text.split '/' (base.toList ++ '/' :: c) ↔ [] ∉ Text.split '/' c := by
    rw [Text.split_append_self, List.mem_append, not_or]
    exact ⟨And.right, fun hc => ⟨hbase, hc⟩⟩
  have hdrop := drop_below base.toList p c
  have hpick : [] ∉ Text.split '/' c →
      N.pick m (String.ofList (base.toList ++ '/' :: c)) = M.pick m (String.ofList c) := by
    intro hc
    rw [ofList_below base (ne_nil_of_split hc)]
    exact pick_below h (Target.trimSlashes_ofList_of_split hc)
  constructor
  · rintro ⟨-, hbound, hp, hsegs, hreg⟩
    have hc := hsplit.mp hsegs
    refine ⟨ne_nil_of_split hc, hdrop ▸ hbound, ?_, hc, hpick hc ▸ hreg⟩
    exact ⟨fun e => hp.1 (by simp [e]), fun e => hp.2 (by simp [e])⟩
  · rintro ⟨-, hbound, hp, hsegs, hreg⟩
    refine ⟨by simp, hdrop.symm ▸ hbound, ?_, hsplit.mpr hsegs, (hpick hsegs).symm ▸ hreg⟩
    exact ⟨by simp [hplain.1, hp.1], by simp [hplain.2, hp.2]⟩

/-- A candidate of the moved registry is the base path or further down. -/
theorem eq_below_of_candidate (h : Below base M N) {p d : List Char} (hd : N.Candidate m p d) :
    (d = base.toList ∧ (M.pick m "").isSome = true) ∨ ∃ c, d = base.toList ++ '/' :: c := by
  obtain ⟨v, hv⟩ := exists_mem_of_pick hd.registered
  obtain ⟨path, htrim, (hkey : String.ofList d = _)⟩ := h.keys _ hv
  by_cases hpath : path = ""
  · have hreg := hd.registered
    rw [hkey, pick_below h htrim, hpath] at hreg
    rw [hpath, Target.below_empty] at hkey
    exact Or.inl ⟨by rw [← hkey, String.toList_ofList], hreg⟩
  · refine Or.inr ⟨path.toList, ?_⟩
    rw [← Target.toList_below_of_ne base hpath, ← hkey, String.toList_ofList]

/-- **A candidate of the moved registry** is the base path, or a candidate moved below it. -/
theorem cases_of_candidate (h : Below base M N) (hplain : Target.Plain base.toList)
    (hbase : [] ∉ Text.split '/' base.toList) {r d : List Char} (hpre : d <+: base.toList ++ r)
    (hd : N.Candidate m (base.toList ++ r) d) :
    (d = base.toList ∧ (M.pick m "").isSome = true) ∨
      ∃ c, d = base.toList ++ '/' :: c ∧ c <+: dropSlash r ∧ M.Candidate m (dropSlash r) c := by
  rcases eq_below_of_candidate h hd with hroot | ⟨c, rfl⟩
  · exact Or.inl hroot
  · rw [List.prefix_append_right_inj] at hpre
    obtain ⟨p, rfl, hp⟩ := List.cons_prefix_iff.mp hpre
    exact Or.inr ⟨c, rfl, hp, (candidate_below_iff h hplain hbase).mp hd⟩

/-- A candidate starts with a segment, so that a slash stands before it. -/
theorem eq_cons_dropSlash {r c : List Char} (hr : Target.atBoundary r = true)
    (hpre : c <+: dropSlash r) (hc : M.Candidate m (dropSlash r) c) : r = '/' :: dropSlash r := by
  cases r with
  | nil => exact absurd (List.prefix_nil.mp hpre) hc.nonempty
  | cons x r =>
    by_cases hx : x = '/'
    · subst hx
      rfl
    · have hdrop : dropSlash (x :: r) = x :: r := by simp [dropSlash, hx]
      have hmem : x ∈ c := by
        rw [hdrop] at hpre
        obtain ⟨c', rfl, -⟩ := (List.prefix_cons_iff.mp hpre).resolve_left hc.nonempty
        exact List.mem_cons_self
      simp [Target.atBoundary, Target.endsSegment, hx, hc.plain.endsPath hmem] at hr

/-- **The longest candidate of the moved registry.** -/
theorem longest_of_below (h : Below base M N) (hplain : Target.Plain base.toList)
    (hbase : [] ∉ Text.split '/' base.toList) {r : List Char} (hr : Target.atBoundary r = true) :
    N.longest m (base.toList ++ r)
      = ((M.longest m (dropSlash r)).map fun c => base.toList ++ '/' :: c).or
          (if (M.pick m "").isSome = true then some base.toList else none) := by
  cases hc : M.longest m (dropSlash r) with
  | some c =>
    obtain ⟨hpre, hcand, hmax⟩ := longest_eq_some_iff.mp hc
    refine longest_eq_some_iff.mpr ⟨?_, ?_, fun d hd hdc => ?_⟩
    · rw [List.prefix_append_right_inj, eq_cons_dropSlash hr hpre hcand]
      exact List.cons_prefix_cons.mpr ⟨rfl, hpre⟩
    · rw [eq_cons_dropSlash hr hpre hcand]
      exact (candidate_below_iff h hplain hbase).mpr hcand
    · rcases cases_of_candidate h hplain hbase hd hdc with ⟨rfl, -⟩ | ⟨c', rfl, hpre', hc'⟩
      · simp
      · simpa using hmax c' hpre' hc'
  | none =>
    have hnone := longest_eq_none_iff.mp hc
    split
    next hroot =>
      refine longest_eq_some_iff.mpr ⟨List.prefix_append _ _, ?_, fun d hd hdc => ?_⟩
      · refine ⟨ne_nil_of_split hbase, by rwa [List.drop_left], hplain, hbase, ?_⟩
        rwa [String.ofList_toList, ← Target.below_empty base, pick_below h rfl]
      · rcases cases_of_candidate h hplain hbase hd hdc with ⟨rfl, -⟩ | ⟨c', -, hpre', hc'⟩
        · exact le_refl _
        · exact absurd hc' (hnone c' hpre')
    next hroot =>
      refine longest_eq_none_iff.mpr fun d hd hdc => ?_
      rcases cases_of_candidate h hplain hbase hd hdc with ⟨-, hroot'⟩ | ⟨c', -, hpre', hc'⟩
      · exact hroot hroot'
      · exact hnone c' hpre' hc'

/-! ## Answers below a base path -/

theorem pick_empty_of_below (h : Below base M N) (hbase : [] ∉ Text.split '/' base.toList) :
    N.pick m "" = none := by
  cases hpick : N.pick m "" with
  | none => rfl
  | some g =>
    obtain ⟨v, hv⟩ := exists_mem_of_pick (by rw [hpick]; rfl)
    obtain ⟨path, -, (hkey : "" = _)⟩ := h.keys _ hv
    have hlist := congrArg String.toList hkey
    by_cases hpath : path = ""
    · rw [hpath, Target.below_empty] at hlist
      exact absurd hlist.symm (ne_nil_of_split hbase)
    · rw [Target.toList_below_of_ne base hpath] at hlist
      exact absurd hlist (by simp)

/-- **Below the base path** the moved registry answers as the other one does, unless nothing but a
slash is left: then it answers from the empty path. -/
theorem answer_of_below (h : Below base M N) (hplain : Target.Plain base.toList)
    (hbase : [] ∉ Text.split '/' base.toList) {target : String} {r : List Char}
    (htarget : dropSlash target.toList = base.toList ++ r) (hr : Target.atBoundary r = true)
    (hbelow : below? base.toList target.toList = some r) :
    N.answer "" m target = if dropSlash r = [] then
        (M.pick m "").map fun g => (String.ofList r, g)
      else M.answer base m target := by
  have hall : below? "".toList target.toList = some target.toList := rfl
  have hlongest := longest_of_below (m := m) h hplain hbase hr
  rw [← htarget] at hlongest
  cases hc : M.longest m (dropSlash r) with
  | some c =>
    obtain ⟨hpre, hcand, -⟩ := longest_eq_some_iff.mp hc
    have hne : dropSlash r ≠ [] := fun e => hcand.nonempty (List.prefix_nil.mp (e ▸ hpre))
    have hrest := eq_cons_dropSlash hr hpre hcand
    have hdrop : (dropSlash target.toList).drop (base.toList ++ '/' :: c).length
        = (dropSlash r).drop c.length := by
      rw [htarget, hrest]
      exact drop_below base.toList _ c
    rw [hc, Option.map_some, Option.some_or] at hlongest
    rw [if_neg hne, answer_of_longest hbelow hc, answer_of_longest hall hlongest, hdrop,
      ofList_below base hcand.nonempty,
      pick_below h (Target.trimSlashes_ofList_of_split hcand.segments)]
  | none =>
    rw [hc, Option.map_none, Option.none_or] at hlongest
    rw [answer_of_no_longest hbelow hc]
    cases hpick : M.pick m "" with
    | some g =>
      have hroot : N.pick m base = some g := by
        have hempty : Target.trimSlashes "" = "" := rfl
        rw [← hpick, ← pick_below h hempty, Target.below_empty]
      rw [hpick, Option.isSome_some, if_pos rfl] at hlongest
      rw [answer_of_longest hall hlongest, htarget, List.drop_left, String.ofList_toList, hroot]
      simp
    | none =>
      rw [hpick, Option.isSome_none, if_neg (by simp)] at hlongest
      rw [answer_of_no_longest hall hlongest, pick_empty_of_below h hbase]
      simp

/-- **Outside of the base path** the moved registry does not answer. -/
theorem answer_outside (h : Below base M N) (hbase : [] ∉ Text.split '/' base.toList)
    {target : String}
    (hout : ∀ r, dropSlash target.toList = base.toList ++ r → Target.atBoundary r = false) :
    N.answer "" m target = none := by
  have hall : below? "".toList target.toList = some target.toList := rfl
  have hnone : N.longest m (dropSlash target.toList) = none := by
    rw [longest_eq_none_iff]
    rintro d ⟨t, ht⟩ hd
    rcases eq_below_of_candidate h hd with ⟨rfl, -⟩ | ⟨c, rfl⟩
    · have hbound := hd.boundary
      rw [← ht, List.drop_left, hout t ht.symm] at hbound
      exact absurd hbound (by simp)
    · rw [List.append_assoc] at ht
      exact absurd (hout _ ht.symm) (by simp [Target.atBoundary, Target.endsSegment])
  rw [answer_of_no_longest hall hnone, pick_empty_of_below h hbase]
  simp

end Registry

/-! ## The two stores -/

theorem dropWhile_eq_dropSlash {s : List Char} (h : ¬ ['/', '/'] <+: s) :
    (s.dropWhile fun c => c = '/') = dropSlash s := by
  cases s with
  | nil => rfl
  | cons c r =>
    by_cases hc : c = '/'
    · subst hc
      cases r with
      | nil => rfl
      | cons d r =>
        have hd : d ≠ '/' := fun e => h (by simp [e])
        simp [dropSlash, hd]
    · simp [dropSlash, hc]

/-- What a target with at most one slash in front leaves below a base path. -/
theorem below?_eq_some_iff {base target : List Char} (hne : base ≠ [])
    (hone : ¬ ['/', '/'] <+: target) {r : List Char} :
    below? base target = some r
      ↔ dropSlash target = base ++ r ∧ Target.atBoundary r = true := by
  simp only [below?, if_neg hne, dropWhile_eq_dropSlash hone, Option.ite_none_right_eq_some,
    Option.some.injEq]
  constructor
  · rintro ⟨⟨⟨t, ht⟩, hb⟩, rfl⟩
    rw [← ht, List.drop_left] at hb ⊢
    exact ⟨rfl, hb⟩
  · rintro ⟨ht, hb⟩
    rw [ht, List.drop_left]
    exact ⟨⟨List.prefix_append _ _, hb⟩, rfl⟩

/-- **A base path is a prefix of every registration.** Let a base path consist of segments without
`?` and `#`. After any updates, a store below it and a store without one, in which everything is
registered below that path, find the same handler and tail for every target with at most one slash
in front. Only where the target is the base path itself, with at most a slash behind it, the first
does not answer, while the second answers from the empty path. Neither answers a target that the
base path is not in front of. -/
theorem lookup_prefixed (base : String) (ops : List (Op H)) (m : Method) (target : String)
    (hbase : [] ∉ Text.split '/' base.toList) (hplain : Target.Plain base.toList)
    (hone : ¬ ['/', '/'] <+: target.toList) :
    let based := run base ops
    let prefixed := run "" (ops.map (Op.below base))
    let bare := dropSlash target.toList
    (bare ≠ base.toList → bare ≠ base.toList ++ ['/'] →
        based.lookup m target = prefixed.lookup m target) ∧
      (bare = base.toList ∨ bare = base.toList ++ ['/'] →
        based.lookup m target = none ∧
          prefixed.lookup m target = ((based.get? (.exact m) "").or (based.get? .any "")).map
            fun h => (String.ofList (bare.drop base.toList.length), h)) ∧
      (¬ (base.toList <+: bare ∧ Target.atBoundary (bare.drop base.toList.length) = true) →
        based.lookup m target = none ∧ prefixed.lookup m target = none) := by
  intro based prefixed bare
  have hrun := represents_run base ops
  have htrim : Target.trimSlashes base = base := by
    have := Target.trimSlashes_ofList_of_split hbase
    rwa [String.ofList_toList] at this
  have hbased : based.lookup m target = (Registry.run ops).answer base m target := by
    rw [lookup_eq_answer hrun, base_run, htrim]
  have hprefixed : prefixed.lookup m target
      = (Registry.run (ops.map (Op.below base))).answer "" m target := by
    rw [lookup_eq_answer (represents_run "" _), base_run]
    rfl
  have hbelow := Registry.below_run hbase ops
  have hiff {r : List Char} : below? base.toList target.toList = some r
      ↔ bare = base.toList ++ r ∧ Target.atBoundary r = true :=
    below?_eq_some_iff (Registry.ne_nil_of_split hbase) hone
  have hroot : (Registry.run ops).pick m ""
      = (based.get? (.exact m) "").or (based.get? .any "") := by
    rw [hrun.get?_eq, hrun.get?_eq]
    rfl
  rw [hbased, hprefixed]
  cases hr : below? base.toList target.toList with
  | some r =>
    obtain ⟨hbare, hbound⟩ := hiff.mp hr
    have hanswer := Registry.answer_of_below (m := m) hbelow hplain hbase hbare hbound hr
    rw [hanswer, hbare, List.drop_left]
    simp only [ne_eq, List.append_right_eq_self, List.append_cancel_left_eq]
    refine ⟨fun hne hne' => ?_, fun h => ?_, fun h => ?_⟩
    · rw [if_neg (mt dropSlash_eq_nil_iff.mp (not_or.mpr ⟨hne, hne'⟩))]
    · have hnil := dropSlash_eq_nil_iff.mpr h
      rw [if_pos hnil, hroot]
      refine ⟨?_, rfl⟩
      rw [Registry.answer_of_no_longest hr (hnil ▸ Registry.longest_nil _ m), if_pos hnil]
    · exact absurd ⟨List.prefix_append _ _, hbound⟩ h
  | none =>
    have hout : ∀ r, bare = base.toList ++ r → Target.atBoundary r = false := fun r hbare => by
      cases hb : Target.atBoundary r with
      | false => rfl
      | true => rw [hiff.mpr ⟨hbare, hb⟩] at hr; exact absurd hr (by simp)
    rw [Registry.answer_of_outside hr, Registry.answer_outside hbelow hbase hout]
    refine ⟨fun _ _ => rfl, fun h => ?_, fun _ => ⟨rfl, rfl⟩⟩
    rcases h with h | h
    · exact absurd (hout [] (by rw [h, List.append_nil])) (by simp [Target.atBoundary])
    · exact absurd (hout ['/'] h) (by simp [Target.atBoundary, Target.endsSegment])

/-- A withdrawn path leaves its targets to a shorter one, and the base path itself is found only
where it is registered as a path. -/
theorem lookup_prefixed_withdrawn :
    let ops : List (Op Nat) :=
      [.add .any "" 1, .add (.exact .get) "/a/" 2, .add .any "a/b" 3, .remove .any "/a/b"]
    [] ∉ Text.split '/' "svc/v".toList ∧ Target.Plain "svc/v".toList ∧
      ¬ ['/', '/'] <+: "/svc/v/a/b?q".toList ∧ ¬ ['/', '/'] <+: "svc/v/".toList ∧
      (run "svc/v" ops).lookup .get "/svc/v/a/b?q"
        = (run "" (ops.map (Op.below "svc/v"))).lookup .get "/svc/v/a/b?q" ∧
      (run "svc/v" ops).lookup .get "/svc/v/a/b?q" = some ("/b?q", 2) ∧
      (run "svc/v" ops).lookup .get "svc/v/" = none ∧
      (run "" (ops.map (Op.below "svc/v"))).lookup .get "svc/v/" = some ("/", 1) := by
  intro ops
  have hbase : [] ∉ Text.split '/' "svc/v".toList := by decide
  have hplain : Target.Plain "svc/v".toList := by decide
  have hone : ¬ ['/', '/'] <+: "/svc/v/a/b?q".toList := by decide
  have hone' : ¬ ['/', '/'] <+: "svc/v/".toList := by decide
  have hsame := (lookup_prefixed "svc/v" ops .get "/svc/v/a/b?q" hbase hplain hone).1
    (by decide) (by decide)
  have hbare := (lookup_prefixed "svc/v" ops .get "svc/v/" hbase hplain hone').2.1
    (Or.inr (by decide))
  exact ⟨hbase, hplain, hone, hone', hsame, by decide, hbare.1, hbare.2.trans (by decide)⟩

end Store

end Routing
