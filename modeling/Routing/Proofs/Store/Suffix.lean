import Routing.Proofs.Store.LongestPrefix

/-!
# Queries and fragments do not count

Where a target leads is decided by its path. The base path, the segments of a registered path and
the slash in front of them all lie in the path, so that a query or a fragment behind it only comes
along as the end of the tail. One thing depends on whether there is one: where nothing but a slash
is left below the base path, a target without a suffix leads nowhere, and one with a suffix leads
to the empty path.

* `longest_append`: the longest candidate lies in the path.
* `answer_append`: what answers a path with a suffix.
-/

namespace Routing.Store

variable {H : Type}

theorem dropSlash_append {q : List Char} (hq : Target.IsSuffix q) (s : List Char) :
    dropSlash (s ++ q) = dropSlash s ++ q := by
  cases s with
  | nil =>
    rcases hq.cases with rfl | ⟨c, r, rfl, hc⟩
    · rfl
    · have hne : c ≠ '/' := by
        rintro rfl
        exact absurd hc (by decide)
      simp [dropSlash, hne]
  | cons c s =>
    by_cases hc : c = '/'
    · subst hc
      rfl
    · simp [dropSlash, hc]

theorem atBoundary_append {q : List Char} (hq : Target.IsSuffix q) (s : List Char) :
    Target.atBoundary (s ++ q) = Target.atBoundary s := by
  cases s with
  | nil => rw [List.nil_append, hq.atBoundary, Target.atBoundary]
  | cons => rfl

/-- What is plain in front of a target lies in its path. -/
theorem prefix_append_iff {b q : List Char} (hb : Target.Plain b) (hq : Target.IsSuffix q)
    {s : List Char} : b <+: s ++ q ↔ b <+: s := by
  constructor
  · rintro ⟨t, ht⟩
    have hpath : b ++ Target.pathChars t = Target.pathChars s := by
      rw [← Target.pathChars_append hb, ht, Target.pathChars_append_suffix s hq]
    have hfront : Target.pathChars s <+: s := List.takeWhile_prefix _
    exact (hpath ▸ List.prefix_append b _ : b <+: Target.pathChars s).trans hfront
  · exact fun h => h.trans (List.prefix_append s q)

/-- **The base path lies in the path.** -/
theorem below?_append {base q : List Char} (hbase : Target.Plain base) (hq : Target.IsSuffix q)
    (s : List Char) : below? base (s ++ q) = (below? base s).map (· ++ q) := by
  have hslash : (q.dropWhile fun c => c = '/') = q := by
    rcases hq.cases with rfl | ⟨c, r, rfl, hc⟩
    · rfl
    · have hne : c ≠ '/' := by
        rintro rfl
        exact absurd hc (by decide)
      simp [hne]
  have htrim : ((s ++ q).dropWhile fun c => c = '/') = (s.dropWhile fun c => c = '/') ++ q := by
    rw [List.dropWhile_append]
    split
    next h => rw [List.isEmpty_iff.mp h, hslash, List.nil_append]
    next h => rfl
  unfold below?
  simp only [htrim, prefix_append_iff hbase hq]
  by_cases hnil : base = []
  · rw [if_pos hnil, if_pos hnil, Option.map_some]
  · rw [if_neg hnil, if_neg hnil]
    by_cases hpre : base <+: s.dropWhile fun c => c = '/'
    · rw [List.drop_append_of_le_length hpre.length_le, atBoundary_append hq]
      split <;> rfl
    · rw [if_neg fun h => hpre h.1, if_neg fun h => hpre h.1, Option.map_none]

namespace Registry

variable {M : Registry H} {m : Method} {q : List Char}

theorem candidate_append_iff (hq : Target.IsSuffix q) {p c : List Char} (hc : c <+: p) :
    M.Candidate m (p ++ q) c ↔ M.Candidate m p c := by
  have hbound : Target.atBoundary ((p ++ q).drop c.length)
      = Target.atBoundary (p.drop c.length) := by
    rw [List.drop_append_of_le_length hc.length_le, atBoundary_append hq]
  constructor
  · intro h
    exact { h with boundary := hbound ▸ h.boundary }
  · intro h
    exact { h with boundary := hbound.symm ▸ h.boundary }

/-- **The longest candidate lies in the path.** -/
theorem longest_append (hq : Target.IsSuffix q) (p : List Char) :
    M.longest m (p ++ q) = M.longest m p := by
  refine Option.ext fun c => ?_
  rw [longest_eq_some_iff, longest_eq_some_iff]
  constructor
  · rintro ⟨hpre, hcand, hmax⟩
    have hpre' := (prefix_append_iff hcand.plain hq).mp hpre
    refine ⟨hpre', (candidate_append_iff hq hpre').mp hcand, fun d hd hdc => ?_⟩
    exact hmax d (hd.trans (List.prefix_append p q)) ((candidate_append_iff hq hd).mpr hdc)
  · rintro ⟨hpre, hcand, hmax⟩
    refine ⟨hpre.trans (List.prefix_append p q), (candidate_append_iff hq hpre).mpr hcand,
      fun d hd hdc => ?_⟩
    have hd' := (prefix_append_iff hdc.plain hq).mp hd
    exact hmax d hd' ((candidate_append_iff hq hd').mp hdc)

/-- What answers a path with whatever follows it, and the rest of the path. -/
def route (M : Registry H) (base : String) (m : Method) (path : String) : Option (String × H) :=
  (below? base.toList path.toList).bind fun r =>
    match M.longest m (dropSlash r) with
    | some c => (M.pick m (String.ofList c)).map fun h =>
        (String.ofList ((dropSlash r).drop c.length), h)
    | none => (M.pick m "").map fun h => (String.ofList r, h)

end Registry

/-- Nothing but a slash is left of a path below the base path. -/
def Bare (base path : String) : Prop :=
  below? base.toList path.toList = some [] ∨ below? base.toList path.toList = some ['/']

instance (base path : String) : Decidable (Bare base path) :=
  inferInstanceAs (Decidable (_ ∨ _))

namespace Registry

variable {M : Registry H} {m : Method}

theorem bare_iff {base path : String} {r : List Char}
    (hr : below? base.toList path.toList = some r) : Bare base path ↔ dropSlash r = [] := by
  rw [Bare, hr, Option.some_inj, Option.some_inj, dropSlash_eq_nil_iff]

/-- **What answers a path with a suffix** does not depend on the suffix, but that a path of which
nothing is left is not answered without one. -/
theorem answer_append {base path q : String} (hbase : Target.Plain base.toList)
    (hq : Target.IsSuffix q.toList) :
    M.answer base m (path ++ q) = if Bare base path ∧ q = "" then none else
      (M.route base m path).map fun f => (f.1 ++ q, f.2) := by
  have hbelow := below?_append hbase hq path.toList
  rw [← String.toList_append] at hbelow
  have htext (t : List Char) : String.ofList (t ++ q.toList) = String.ofList t ++ q := by
    rw [String.ofList_append, String.ofList_toList]
  unfold route
  cases hr : below? base.toList path.toList with
  | none =>
    rw [hr] at hbelow
    rw [answer_of_outside hbelow]
    simp
  | some r =>
    rw [hr, Option.map_some] at hbelow
    have hdrop := dropSlash_append hq r
    have hlongest := longest_append (M := M) (m := m) hq (dropSlash r)
    rw [← hdrop] at hlongest
    rw [Option.bind_some]
    cases hc : M.longest m (dropSlash r) with
    | some c =>
      obtain ⟨hpre, hcand, -⟩ := longest_eq_some_iff.mp hc
      have hne : ¬ (Bare base path ∧ q = "") := fun h => by
        rw [(bare_iff hr).mp h.1, longest_nil] at hc
        exact absurd hc (by simp)
      rw [answer_of_longest hbelow (hlongest.trans hc), if_neg hne, hdrop,
        List.drop_append_of_le_length hpre.length_le, htext, Option.map_map]
      rfl
    | none =>
      have hempty : dropSlash (r ++ q.toList) = [] ↔ Bare base path ∧ q = "" := by
        rw [hdrop, List.append_eq_nil_iff, bare_iff hr, String.toList_eq_nil_iff]
      rw [answer_of_no_longest hbelow (hlongest.trans hc), htext, Option.map_map]
      simp only [hempty]
      rfl

/-- A path of which nothing is left leads to the empty path. -/
theorem route_of_bare {base path : String} (h : Bare base path) :
    ∃ t, M.route base m path = (M.pick m "").map fun g => (t, g) := by
  obtain ⟨r, hr⟩ : ∃ r, below? base.toList path.toList = some r :=
    h.elim (fun h => ⟨_, h⟩) fun h => ⟨_, h⟩
  refine ⟨String.ofList r, ?_⟩
  rw [route, hr, Option.bind_some, (bare_iff hr).mp h, longest_nil]

end Registry

end Routing.Store
