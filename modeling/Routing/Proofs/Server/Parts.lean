import Routing.Proofs.Http.Target
import Routing.Proofs.Server.Answers

/-!
# The parts of a target

A target is a path, which holds neither `?` nor `#`, maybe a query behind a `?`, which holds no `#`,
and maybe a fragment behind a `#`. There is one way to take it apart, and nothing of it is lost. All
that look for the end of the path find the same: the matcher of an API and the test for its root see
what they see of the path alone, and a tail is that of the root exactly when the matcher would see no
segment in it.

* `parts_iff`: the parts of a target.
* `segments_path`: segments are those of the path.
* `isRoot_iff_segments`: the root has no segments.
* `path_decides`: all of this of the target of a request.
-/

namespace Routing

namespace Target

/-- A target is made up of a path, a query and a fragment with its mark. -/
inductive Parts : String → String → Option String → String → Prop
  | bare {p : String} : Plain p.toList → Parts p p none ""
  | fragment {p r : String} : Plain p.toList → Parts (p ++ "#" ++ r) p none ("#" ++ r)
  | query {p q f : String} : Plain p.toList → '#' ∉ q.toList →
    f = "" ∨ f.toList.head? = some '#' → Parts (p ++ "?" ++ q ++ f) p (some q) f

/-- The characters of a target from its first `#` on. -/
def fragment (target : String) : String :=
  String.ofList (target.toList.dropWhile fun c => c ≠ '#')

/-! ## Taking a target apart -/

theorem path_append {p rest : String} (hp : Plain p.toList) (hrest : IsSuffix rest.toList) :
    path (p ++ rest) = p := by
  have hself : pathChars p.toList = p.toList := by simpa [pathChars] using pathChars_append hp []
  rw [path, String.toList_append, pathChars_append_suffix p.toList hrest, hself,
    String.ofList_toList]

theorem path_eq_self {p : String} (hp : Plain p.toList) : path p = p := by
  have h := @path_append p "" hp (Or.inl rfl)
  rwa [String.append_empty] at h

theorem query?_append {p : String} (hp : Plain p.toList) (rest : String) :
    query? (p ++ rest) = query? rest := by
  unfold query?
  rw [String.toList_append, suffixChars_append hp]

theorem fragment_append {p : String} (hp : '#' ∉ p.toList) (rest : String) :
    fragment (p ++ rest) = fragment rest := by
  unfold fragment
  rw [String.toList_append, List.dropWhile_append_of_pos]
  intro c hc
  exact decide_eq_true fun e => hp (e ▸ hc)

/-- What follows the path where there is a query. -/
theorem isSuffix_mark (r : String) : IsSuffix ("?" ++ r).toList :=
  Or.inr (Or.inl (by simp))

theorem isSuffix_hash (r : String) : IsSuffix ("#" ++ r).toList :=
  Or.inr (Or.inr (by simp))

theorem query?_mark {q f : String} (hq : '#' ∉ q.toList) (hf : f = "" ∨ f.toList.head? = some '#') :
    query? ("?" ++ (q ++ f)) = some q := by
  have hpass : ∀ c ∈ q.toList, decide (c ≠ '#') = true := by
    intro c hc
    exact decide_eq_true fun e => hq (e ▸ hc)
  have hstop : f.toList.takeWhile (fun c => c ≠ '#') = [] := by
    rcases hf with rfl | hf
    · rfl
    · obtain ⟨r, hr⟩ := List.head?_eq_some_iff.mp hf
      simp [hr]
  have hsuffix : suffixChars ("?" ++ (q ++ f)).toList = '?' :: (q.toList ++ f.toList) := by
    simp [suffixChars, endsPath]
  rw [query?, hsuffix]
  simp only
  rw [List.takeWhile_append_of_pos hpass, hstop, List.append_nil, String.ofList_toList]

theorem fragment_of_head? {f : String} (hf : f = "" ∨ f.toList.head? = some '#') :
    fragment f = f := by
  rcases hf with rfl | hf
  · rfl
  · obtain ⟨r, hr⟩ := List.head?_eq_some_iff.mp hf
    rw [fragment, hr, List.dropWhile_cons_of_neg (by simp), ← hr, String.ofList_toList]

variable {t p f : String} {q : Option String}

/-- The parts of a target are its path, its query and its fragment. -/
theorem eq_of_parts (h : Parts t p q f) : p = path t ∧ q = query? t ∧ f = fragment t := by
  cases h with
  | bare hp =>
    have hquery := query?_append hp ""
    have hfragment := fragment_append hp.2 ""
    rw [String.append_empty] at hquery hfragment
    exact ⟨(path_eq_self hp).symm, hquery.symm, hfragment.symm⟩
  | @fragment _ r hp =>
    have hquery : query? ("#" ++ r) = none := by
      simp [query?, suffixChars, endsPath]
    rw [String.append_assoc, path_append hp (isSuffix_hash r), query?_append hp, hquery,
      fragment_append hp.2, fragment_of_head? (Or.inr (by simp))]
    exact ⟨rfl, rfl, rfl⟩
  | @query _ q _ hp hq hf =>
    rw [String.append_assoc, String.append_assoc, path_append hp (isSuffix_mark _),
      query?_append hp, query?_mark hq hf, fragment_append hp.2, fragment_append (by decide),
      fragment_append hq, fragment_of_head? hf]
    exact ⟨rfl, rfl, rfl⟩

theorem isSuffix_suffixChars (s : List Char) : IsSuffix (suffixChars s) := by
  induction s with
  | nil => exact Or.inl rfl
  | cons c r ih =>
    cases hc : endsPath c with
    | true =>
      have hmark : c = '?' ∨ c = '#' := by simpa [endsPath] using hc
      exact Or.inr (by simpa [suffixChars, hc] using hmark)
    | false => simpa [suffixChars, hc] using ih

theorem eq_path_append (t : String) :
    ∃ p s, Plain p.toList ∧ IsSuffix s ∧ t = p ++ String.ofList s := by
  refine ⟨path t, suffixChars t.toList, ?_, isSuffix_suffixChars _, ?_⟩
  · rw [path, String.toList_ofList]
    exact plain_pathChars _
  · rw [path, ← String.ofList_append, pathChars_append_suffixChars, String.ofList_toList]

/-- A text is what it holds in front of a mark, and what it holds from the mark on. -/
theorem exists_cut (c : Char) (r : List Char) :
    ∃ q f, r = q ++ f ∧ c ∉ q ∧ (f = [] ∨ f.head? = some c) := by
  induction r with
  | nil => exact ⟨[], [], rfl, List.not_mem_nil, Or.inl rfl⟩
  | cons x r ih =>
    by_cases hx : x = c
    · exact ⟨[], x :: r, rfl, List.not_mem_nil, Or.inr (congrArg some hx)⟩
    · obtain ⟨q, f, rfl, hq, hf⟩ := ih
      exact ⟨x :: q, f, rfl, by simp [hq, Ne.symm hx], hf⟩

/-- **A target can be taken apart.** -/
theorem exists_parts (t : String) : ∃ p q f, Parts t p q f := by
  obtain ⟨p, s, hp, hs, rfl⟩ := eq_path_append t
  rcases hs with rfl | hs | hs
  · have hbare : p ++ String.ofList [] = p := String.append_empty
    exact ⟨p, none, "", hbare.symm ▸ .bare hp⟩
  · obtain ⟨r, rfl⟩ := List.head?_eq_some_iff.mp hs
    obtain ⟨q, f, rfl, hq, hf⟩ := exists_cut '#' r
    have htext : String.ofList ('?' :: (q ++ f)) = "?" ++ String.ofList q ++ String.ofList f := by
      simp [← String.toList_inj]
    rw [htext, ← String.append_assoc, ← String.append_assoc]
    exact ⟨p, _, _, .query hp (by simpa using hq) (by simpa using hf)⟩
  · obtain ⟨r, rfl⟩ := List.head?_eq_some_iff.mp hs
    have htext : String.ofList ('#' :: r) = "#" ++ String.ofList r := by simp
    rw [htext, ← String.append_assoc]
    exact ⟨p, none, _, .fragment hp⟩

/-- **The parts of a target**: there is one way to take it apart. -/
theorem parts_iff : Parts t p q f ↔ p = path t ∧ q = query? t ∧ f = fragment t := by
  constructor
  · exact eq_of_parts
  · rintro ⟨rfl, rfl, rfl⟩
    obtain ⟨p, q, f, h⟩ := exists_parts t
    obtain ⟨rfl, rfl, rfl⟩ := eq_of_parts h
    exact h

/-! ## The path of a target -/

theorem path_path (t : String) : path (path t) = path t := by
  have hplain : Plain (path t).toList := by
    rw [path, String.toList_ofList]
    exact plain_pathChars _
  exact path_eq_self hplain

/-- **Segments are those of the path.** -/
theorem segments_path (t : String) : segments (path t) = segments t := by
  unfold segments
  rw [path_path]

end Target

variable {σ : Type}

/-- **The root has no segments.** -/
theorem Mount.isRoot_iff_segments {t : String} :
    Mount.isRoot t = true ↔ Target.segments t = [] := by
  rw [Server.isRoot_iff, Server.segments_eq_nil_iff]

/-- A matcher looks at the path only. -/
theorem Matcher.lookup_path (M : Matcher) (m : Method) (t : String) :
    M.lookup m (Target.path t) = M.lookup m t := by
  unfold Matcher.lookup
  rw [Target.segments_path]

/-- The page of an API is served where the matcher would see no segment. -/
theorem Mount.serveApi_of_no_segment {t : String} (h : Target.segments t = [])
    (a : CompiledApi σ) (req : Request) (x : Exchange σ) :
    (serveApi a t req x).1 = .done ∧ (serveApi a t req x).2.response.status = .ok := by
  simp only [serveApi, isRoot_iff_segments.mpr h, if_true, Exchange.fill, Exchange.answer,
    Server.fill_page, true_and]
  rfl

/-- **The path decides.** The target of a request is its path, which holds neither `?` nor `#`, then
its query behind a `?`, if there is one, which holds no `#`, and then nothing or a `#` and anything;
it can be taken apart in this way only. A matcher finds for the target what it finds for the path,
the target is that of the root of an API iff the path is, and this is so iff the matcher sees no
segment in it. So the matcher of an API is asked for a tail with a first segment, and a tail
without segments is answered by the page, with status 200. -/
theorem Request.path_decides (r : Request) :
    let t := r.target
    (∀ p q f, Target.Parts t p q f ↔ p = r.path ∧ q = r.query? ∧ f = Target.fragment t) ∧
      (∀ (M : Matcher) (m : Method), M.lookup m t = M.lookup m r.path) ∧
      Mount.isRoot t = Mount.isRoot r.path ∧
      (Mount.isRoot t = true ↔ Target.segments t = []) ∧
      ∀ (a : CompiledApi σ) (req : Request) (x : Exchange σ),
        if Target.segments t = [] then
          (Mount.serveApi a t req x).1 = .done ∧
            (Mount.serveApi a t req x).2.response.status = .ok
        else
          Mount.isRoot t = false ∧ ∃ s rest, Target.segments t = s :: rest ∧
            a.matcher.lookup req.method t
              = Matcher.search req.method a.matcher.roots ⟨s⟩ (rest.map Segment.mk) := by
  intro t
  have hpath : r.path = Target.path t := rfl
  have hquery : r.query? = Target.query? t := rfl
  rw [hpath, hquery]
  refine ⟨fun p q f => Target.parts_iff, fun M m => (M.lookup_path m t).symm, ?_,
    Mount.isRoot_iff_segments, ?_⟩
  · rw [Bool.eq_iff_iff, Mount.isRoot_iff_segments, Mount.isRoot_iff_segments,
      Target.segments_path]
  · intro a req x
    split
    next hnil => exact Mount.serveApi_of_no_segment hnil a req x
    next hnil =>
      obtain ⟨s, rest, hsegments⟩ := List.exists_cons_of_ne_nil hnil
      refine ⟨Bool.eq_false_iff.mpr (mt Mount.isRoot_iff_segments.mp hnil), s, rest, hsegments, ?_⟩
      rw [Matcher.lookup, hsegments]
      rfl

end Routing
