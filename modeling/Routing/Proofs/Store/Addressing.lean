import Routing.Proofs.Store.LongestPrefix

/-!
# Targets that ask for a path

A target asks for a path if, below the base path and at most one slash, it starts with the path, up
to a boundary; what follows is the tail. Where a target asks for one registered path only, the
search for the longest registered prefix finds that path.

* `tail?_eq_some_iff`: what it means to ask for a path.
* `tail?_append`: a target that asks for a path.
* `answer_of_tail?`: a target that asks for one registered path is answered from there.
* `answer_eq_none_of_tail?`: a target that asks for no registered path is not answered.
-/

namespace Routing.Store

variable {H : Type}

/-- What follows a path in a target that asks for it. -/
def tail? (base path target : String) : Option String :=
  (below? base.toList target.toList).bind fun r =>
    (Text.afterFront? path.toList (dropSlash r)).bind fun t =>
      if Target.atBoundary t = true then some (String.ofList t) else none

theorem tail?_eq_some_iff {base path target tail : String} :
    tail? base path target = some tail ↔
      ∃ r, below? base.toList target.toList = some r ∧
        dropSlash r = path.toList ++ tail.toList ∧ Target.atBoundary tail.toList = true := by
  unfold tail?
  simp only [Option.bind_eq_some_iff, afterFront?_eq_some_iff, Option.ite_none_right_eq_some,
    Option.some.injEq]
  constructor
  · rintro ⟨r, hr, t, ht, hb, rfl⟩
    exact ⟨r, hr, by rw [String.toList_ofList, ht], by rwa [String.toList_ofList]⟩
  · rintro ⟨r, hr, ht, hb⟩
    exact ⟨r, hr, tail.toList, ht, hb, String.ofList_toList⟩

/-- What follows a path in a target that is the base path, the path and more. -/
theorem tail?_append {base path rest : String}
    (hbase : Text.trim Target.isSlash base.toList = base.toList)
    (hrest : Target.atBoundary rest.toList = true) :
    tail? base path (base ++ "/" ++ path ++ rest) = some rest := by
  have hbelow : below? base.toList (base ++ "/" ++ path ++ rest).toList
      = some ('/' :: (path.toList ++ rest.toList)) := by
    simp only [String.toList_append, List.append_assoc]
    exact below?_append_self hbase rfl
  exact tail?_eq_some_iff.mpr ⟨_, hbelow, rfl, hrest⟩

/-- A target without what it asks a longer path for. -/
theorem tail?_of_below? {base target : String} {r c t : List Char}
    (hr : below? base.toList target.toList = some r) (ht : dropSlash r = c ++ t)
    (hb : Target.atBoundary t = true) :
    tail? base (String.ofList c) target = some (String.ofList t) :=
  tail?_eq_some_iff.mpr ⟨r, hr, by rw [String.toList_ofList, String.toList_ofList, ht],
    by rwa [String.toList_ofList]⟩

namespace Registry

variable {M : Registry H} {m : Method} {base path target tail : String}

/-- A target asks for each of its candidates. -/
theorem tail?_of_candidate {r c : List Char} (hr : below? base.toList target.toList = some r)
    (hc : c <+: dropSlash r) (hcand : M.Candidate m (dropSlash r) c) :
    ∃ t, tail? base (String.ofList c) target = some t := by
  obtain ⟨t, ht⟩ := hc
  have hb := hcand.boundary
  rw [← ht, List.drop_left] at hb
  exact ⟨_, tail?_of_below? hr ht.symm hb⟩

/-- **A target that asks for one registered path is answered from there**, with what follows. -/
theorem answer_of_tail? {h : H} (htail : tail? base path target = some tail)
    (hplain : Target.Plain path.toList) (hsegs : [] ∉ Text.split '/' path.toList)
    (hpick : M.pick m path = some h)
    (honly : ∀ q t, (M.pick m q).isSome = true → tail? base q target = some t → q = path) :
    M.answer base m target = some (tail, h) := by
  obtain ⟨r, hr, hp, hb⟩ := tail?_eq_some_iff.mp htail
  have hpick' : M.pick m (String.ofList path.toList) = some h := by rwa [String.ofList_toList]
  have hlongest : M.longest m (dropSlash r) = some path.toList := by
    refine longest_eq_some_iff.mpr ⟨⟨_, hp.symm⟩, ?_, fun d hd hcand => ?_⟩
    · refine ⟨?_, ?_, hplain, hsegs, by rw [hpick']; rfl⟩
      · intro e
        rw [e] at hsegs
        exact hsegs (by simp [Text.split])
      · rw [hp, List.drop_left]
        exact hb
    · obtain ⟨t, ht⟩ := tail?_of_candidate hr hd hcand
      rw [← honly _ t hcand.registered ht, String.toList_ofList]
  unfold answer
  rw [hr, Option.bind_some]
  simp only [hlongest, hpick', Option.map_some]
  rw [hp, List.drop_left, String.ofList_toList]

/-- **A target that asks for no registered path is not answered**, if the empty path is not
registered. -/
theorem answer_eq_none_of_tail? (hroot : M.pick m "" = none)
    (hnone : ∀ q, (M.pick m q).isSome = true → tail? base q target = none) :
    M.answer base m target = none := by
  unfold answer
  cases hr : below? base.toList target.toList with
  | none => rfl
  | some r =>
    have hlongest : M.longest m (dropSlash r) = none := by
      refine longest_eq_none_iff.mpr fun c hc hcand => ?_
      obtain ⟨t, ht⟩ := tail?_of_candidate hr hc hcand
      rw [hnone _ hcand.registered] at ht
      exact absurd ht (by simp)
    rw [Option.bind_some]
    simp only [hlongest, hroot, Option.map_none, ite_self]

end Registry

end Routing.Store
