import Routing.Http.Target

/-!
# Prefixes of paths that end with a segment

The segments of a path are the pieces between its slashes. A prefix of a target stands for the
first segments of its path exactly when it stops at the end of the target or right before `/`, `?`
or `#`, and holds neither `?` nor `#` itself.

* `split_path_of_append`: such a prefix is a list of first segments.
* `append_of_split_path`: a list of first segments is such a prefix, and what follows it is the
  text of the other segments and of the query.
* `pathChars_append_suffix`: a query or a fragment does not belong to the path.
* `segments_join`: segments are recovered from the path that they make up.
* `isSegment_iff_mem_segments`: which texts are segments of targets.
* `trim_eq_self_of_split`: a path whose segments are not empty has no slashes at its ends.
-/

namespace Routing.Target

/-- Whether a path may end in front of a text: there is no more of it, or a delimiter. -/
def atBoundary : List Char → Bool
  | [] => true
  | c :: _ => endsSegment c

/-- A text that is a path all through: there is neither a `?` nor a `#` in it. -/
def Plain (s : List Char) : Prop :=
  '?' ∉ s ∧ '#' ∉ s

instance (s : List Char) : Decidable (Plain s) :=
  inferInstanceAs (Decidable (_ ∧ _))

theorem endsPath_eq_false_iff {c : Char} : endsPath c = false ↔ c ≠ '?' ∧ c ≠ '#' := by
  simp [endsPath]

theorem Plain.endsPath {s : List Char} (h : Plain s) {c : Char} (hc : c ∈ s) :
    endsPath c = false :=
  endsPath_eq_false_iff.mpr ⟨fun e => h.1 (e ▸ hc), fun e => h.2 (e ▸ hc)⟩

theorem plain_pathChars (s : List Char) : Plain (pathChars s) := by
  have h : ∀ c ∈ pathChars s, endsPath c = false := fun c hc => by
    have hall := List.all_eq_true.mp (List.all_takeWhile (l := s) (p := fun c => !endsPath c)) c hc
    simpa using hall
  exact ⟨fun e => (endsPath_eq_false_iff.mp (h _ e)).1 rfl,
    fun e => (endsPath_eq_false_iff.mp (h _ e)).2 rfl⟩

theorem pathChars_append_suffixChars (s : List Char) : pathChars s ++ suffixChars s = s :=
  List.takeWhile_append_dropWhile

theorem pathChars_append {s : List Char} (h : Plain s) (t : List Char) :
    pathChars (s ++ t) = s ++ pathChars t :=
  List.takeWhile_append_of_pos fun c hc => by simp [h.endsPath hc]

theorem suffixChars_append {s : List Char} (h : Plain s) (t : List Char) :
    suffixChars (s ++ t) = suffixChars t :=
  List.dropWhile_append_of_pos fun c hc => by simp [h.endsPath hc]

/-- The query of a target, if there is one, starts at a boundary. -/
theorem atBoundary_suffixChars (s : List Char) : atBoundary (suffixChars s) = true := by
  induction s with
  | nil => rfl
  | cons c r ih =>
    cases hc : endsPath c with
    | true => simp [suffixChars, hc, atBoundary, endsSegment]
    | false => simpa [suffixChars, hc] using ih

/-- **A prefix up to a boundary is a list of first segments**, and what follows it is the text of
the others. -/
theorem split_path_of_append {c t : List Char} (hc : Plain c) (ht : atBoundary t = true) :
    ∃ rest, Text.split '/' (pathChars (c ++ t)) = Text.split '/' c ++ rest ∧
      t = (rest.flatMap fun s => '/' :: s) ++ suffixChars (c ++ t) := by
  rw [pathChars_append hc, suffixChars_append hc]
  cases t with
  | nil => exact ⟨[], by simp [pathChars], by simp [suffixChars]⟩
  | cons x r =>
    cases hx : endsPath x with
    | true =>
      refine ⟨[], by simp [pathChars, hx], ?_⟩
      simp [suffixChars, hx]
    | false =>
      have hslash : x = '/' := by simpa [atBoundary, endsSegment, hx] using ht
      subst hslash
      have hpath : pathChars ('/' :: r) = '/' :: pathChars r := by simp [pathChars, hx]
      have hsuffix : suffixChars ('/' :: r) = suffixChars r := by simp [suffixChars, hx]
      refine ⟨Text.split '/' (pathChars r), ?_, ?_⟩
      · rw [hpath, Text.split_append_self]
      · have hjoin : '/' :: pathChars r
            = (Text.split '/' (pathChars r)).flatMap fun s => '/' :: s := by
          cases hs : Text.split '/' (pathChars r) with
          | nil => exact absurd hs (Text.split_ne_nil _ _)
          | cons p ps =>
            rw [List.flatMap_cons, List.cons_append, ← Text.join_cons, ← hs, Text.join_split]
        rw [hsuffix, ← hjoin, List.cons_append, pathChars_append_suffixChars]

/-- **First segments are a prefix up to a boundary.** -/
theorem append_of_split_path {p : List Char} {ps rest : List (List Char)}
    (h : Text.split '/' (pathChars p) = ps ++ rest) (hne : ps ≠ []) :
    p = Text.join '/' ps ++ ((rest.flatMap fun s => '/' :: s) ++ suffixChars p) ∧
      Plain (Text.join '/' ps) ∧ Text.split '/' (Text.join '/' ps) = ps ∧
      atBoundary ((rest.flatMap fun s => '/' :: s) ++ suffixChars p) = true := by
  have hpath : pathChars p = Text.join '/' ps ++ rest.flatMap fun s => '/' :: s := by
    rw [← Text.join_append '/' hne, ← h, Text.join_split]
  refine ⟨?_, ?_, ?_, ?_⟩
  · rw [← List.append_assoc, ← hpath, pathChars_append_suffixChars]
  · have hplain := plain_pathChars p
    rw [hpath] at hplain
    exact ⟨fun e => hplain.1 (List.mem_append_left _ e),
      fun e => hplain.2 (List.mem_append_left _ e)⟩
  · refine Text.split_join hne fun q hq => ?_
    exact Text.not_mem_of_mem_split (h ▸ List.mem_append_left rest hq)
  · cases rest with
    | nil => exact atBoundary_suffixChars p
    | cons q qs => rfl

/-! ## What follows the path -/

/-- A text that may follow a path: nothing, or a query or a fragment with its mark. -/
def IsSuffix (s : List Char) : Prop :=
  s = [] ∨ s.head? = some '?' ∨ s.head? = some '#'

instance (s : List Char) : Decidable (IsSuffix s) :=
  inferInstanceAs (Decidable (_ ∨ _))

/-- A suffix that is not empty starts with a character that ends the path. -/
theorem IsSuffix.cases {s : List Char} (h : IsSuffix s) :
    s = [] ∨ ∃ c r, s = c :: r ∧ endsPath c = true := by
  rcases h with h | h | h
  · exact Or.inl h
  · obtain ⟨r, rfl⟩ := List.head?_eq_some_iff.mp h
    exact Or.inr ⟨_, r, rfl, rfl⟩
  · obtain ⟨r, rfl⟩ := List.head?_eq_some_iff.mp h
    exact Or.inr ⟨_, r, rfl, rfl⟩

theorem IsSuffix.atBoundary {s : List Char} (h : IsSuffix s) : atBoundary s = true := by
  rcases h.cases with rfl | ⟨c, r, rfl, hc⟩
  · rfl
  · simp [Target.atBoundary, endsSegment, hc]

/-- **A suffix does not belong to the path.** -/
theorem pathChars_append_suffix (s : List Char) {q : List Char} (hq : IsSuffix q) :
    pathChars (s ++ q) = pathChars s := by
  have hnil : pathChars q = [] := by
    rcases hq.cases with rfl | ⟨c, r, rfl, hc⟩
    · rfl
    · simp [pathChars, hc]
  induction s with
  | nil => exact hnil
  | cons c r ih =>
    unfold pathChars at ih ⊢
    rw [List.cons_append, List.takeWhile_cons, List.takeWhile_cons, ih]

theorem segments_append_suffix (t : String) {q : String} (hq : IsSuffix q.toList) :
    segments (t ++ q) = segments t := by
  unfold segments path
  rw [String.toList_append, pathChars_append_suffix t.toList hq]

/-! ## Segments -/

/-- Segments belong to the path. -/
theorem plain_of_mem_segments {target s : String} (h : s ∈ segments target) : Plain s.toList := by
  have hsub : ∀ c ∈ s.toList, c ∈ pathChars target.toList := by
    obtain ⟨p, hp, rfl⟩ := List.mem_map.mp (List.mem_filter.mp h).1
    rw [path, String.toList_ofList] at hp
    intro c hc
    rw [← Text.join_split '/' (pathChars target.toList)]
    exact Text.mem_join_of_mem hp (by simpa using hc)
  have hplain := plain_pathChars target.toList
  exact ⟨fun e => hplain.1 (hsub _ e), fun e => hplain.2 (hsub _ e)⟩

/-- **Segments are recovered from the path that they make up**, if they can be segments at all. -/
theorem segments_join {ps : List (List Char)}
    (h : ∀ p ∈ ps, p ≠ [] ∧ '/' ∉ p ∧ Plain p) :
    segments (String.ofList (Text.join '/' ps)) = ps.map String.ofList := by
  have hpart : ∀ c ∈ Text.join '/' ps, c = '/' ∨ ∃ p ∈ ps, c ∈ p :=
    fun c hc => Text.eq_or_mem_of_mem_join hc
  have hplain : Plain (Text.join '/' ps) := by
    refine ⟨fun hc => ?_, fun hc => ?_⟩
    · rcases hpart _ hc with heq | ⟨p, hp, hc⟩
      · exact absurd heq (by decide)
      · exact (h p hp).2.2.1 hc
    · rcases hpart _ hc with heq | ⟨p, hp, hc⟩
      · exact absurd heq (by decide)
      · exact (h p hp).2.2.2 hc
  have hpath : pathChars (Text.join '/' ps) = Text.join '/' ps := by
    simpa [pathChars] using pathChars_append hplain []
  cases ps with
  | nil => rfl
  | cons p ps =>
    rw [segments, path, String.toList_ofList, hpath, Text.splitText, String.toList_ofList,
      Text.split_join (by simp) fun q hq => (h q hq).2.1]
    refine List.filter_eq_self.mpr fun s hs => ?_
    obtain ⟨q, hq, rfl⟩ := List.mem_map.mp hs
    simpa using (h q hq).1

/-- A text that can be a segment of a target. -/
def IsSegment (s : String) : Prop :=
  s ≠ "" ∧ '/' ∉ s.toList ∧ '?' ∉ s.toList ∧ '#' ∉ s.toList

instance (s : String) : Decidable (IsSegment s) :=
  inferInstanceAs (Decidable (_ ∧ _))

theorem IsSegment.of_mem {target s : String} (h : s ∈ segments target) : IsSegment s := by
  obtain ⟨hsplit, hne⟩ := List.mem_filter.mp h
  obtain ⟨p, hp, rfl⟩ := List.mem_map.mp hsplit
  refine ⟨of_decide_eq_true hne, ?_, plain_of_mem_segments h⟩
  rw [String.toList_ofList]
  exact Text.not_mem_of_mem_split hp

/-- Slashes in front make no segments. -/
theorem segments_slash (target : String) : segments ("/" ++ target) = segments target := by
  have hpath : pathChars ("/" ++ target).toList = '/' :: pathChars target.toList := by
    simp [pathChars, endsPath]
  rw [segments, path, hpath, Text.splitText, String.toList_ofList, Text.split_cons_self,
    List.map_cons, List.filter_cons_of_neg (by decide)]
  rw [segments, path, Text.splitText, String.toList_ofList]

/-- The segments of a path of two. -/
theorem segments_pair {s t : String} (hs : IsSegment s) (ht : IsSegment t) :
    segments ("/" ++ s ++ "/" ++ t) = [s, t] := by
  have hjoin : s ++ "/" ++ t = String.ofList (Text.join '/' [s.toList, t.toList]) := by
    rw [← String.toList_inj]
    simp [Text.join_cons]
  have hpiece : ∀ p ∈ [s.toList, t.toList], p ≠ [] ∧ '/' ∉ p ∧ Plain p := by
    have hchars {x : String} (hx : IsSegment x) : x.toList ≠ [] ∧ '/' ∉ x.toList ∧ Plain x.toList :=
      ⟨fun e => hx.1 (String.toList_eq_nil_iff.mp e), hx.2⟩
    simp [hchars hs, hchars ht]
  rw [String.append_assoc, String.append_assoc, segments_slash, ← String.append_assoc, hjoin,
    segments_join hpiece]
  simp [String.ofList_toList]

/-- **The segments of targets** are these texts. -/
theorem isSegment_iff_mem_segments {s : String} :
    IsSegment s ↔ ∃ target, s ∈ segments target := by
  constructor
  · intro hs
    exact ⟨"/" ++ s ++ "/" ++ s, by simp [segments_pair hs hs]⟩
  · rintro ⟨target, h⟩
    exact .of_mem h

/-! ## Slashes at the ends -/

theorem Plain.trimSlashes {path : String} (h : Plain path.toList) :
    Plain (trimSlashes path).toList := by
  have hsub : ∀ c ∈ (Target.trimSlashes path).toList, c ∈ path.toList := fun c hc => by
    rw [Target.trimSlashes, Text.trimText, String.toList_ofList] at hc
    exact (List.dropWhile_suffix _).subset ((Text.trimEnd_prefix _ _).subset hc)
  exact ⟨fun e => h.1 (hsub _ e), fun e => h.2 (hsub _ e)⟩

theorem trimSlashes_trimSlashes (path : String) :
    trimSlashes (trimSlashes path) = trimSlashes path := by
  unfold trimSlashes Text.trimText
  rw [String.toList_ofList, Text.trim_trim]

/-- A path without empty segments neither starts nor ends with a slash. -/
theorem trim_eq_self_of_split {s : List Char} (h : [] ∉ Text.split '/' s) :
    Text.trim isSlash s = s := by
  refine Text.trim_eq_self (fun c hc => ?_) (fun c hc => ?_)
  · cases s with
    | nil => simp at hc
    | cons x r =>
      obtain rfl := Option.some.inj hc
      by_cases hx : x = '/'
      · subst hx
        exact absurd (by rw [Text.split_cons_self]; exact List.mem_cons_self) h
      · simp [isSlash, hx]
  · obtain ⟨r, rfl⟩ := List.getLast?_eq_some_iff.mp hc
    by_cases hx : c = '/'
    · subst hx
      refine absurd ?_ h
      rw [Text.split_append_self]
      exact List.mem_append_right _ (by simp [Text.split])
    · simp [isSlash, hx]

theorem trimSlashes_ofList_of_split {s : List Char} (h : [] ∉ Text.split '/' s) :
    trimSlashes (String.ofList s) = String.ofList s := by
  unfold trimSlashes Text.trimText
  rw [String.toList_ofList, trim_eq_self_of_split h]

end Routing.Target
