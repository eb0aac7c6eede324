/-!
# Splitting and trimming texts

Texts are cut at single characters everywhere in this library: paths at `/`, targets at `?` and
`#`, files at line feeds. The functions here work on `List Char` and are structurally recursive;
`splitText` and `trimText` lift them to `String`.

* `join_split`: joining the pieces with the separator gives the text back.
* `split_join`: pieces without the separator are recovered from their join.
* `not_mem_of_mem_split`: no piece holds the separator.
* `trim_trim`: trimming twice is trimming once.
-/

namespace Routing.Text

/-- The pieces of a text between the occurrences of `c`: one more than there are occurrences. -/
def split (c : Char) : List Char → List (List Char)
  | [] => [[]]
  | x :: r =>
    if x = c then [] :: split c r
    else
      match split c r with
      | [] => [[x]]
      | p :: ps => (x :: p) :: ps

/-- The pieces of a text between the characters of `p`. -/
def splitWhere (p : Char → Bool) : List Char → List (List Char)
  | [] => [[]]
  | x :: r =>
    if p x then [] :: splitWhere p r
    else
      match splitWhere p r with
      | [] => [[x]]
      | q :: qs => (x :: q) :: qs

/-- The pieces with `c` between any two neighbours. -/
def join (c : Char) : List (List Char) → List Char
  | [] => []
  | [p] => p
  | p :: q :: ps => p ++ c :: join c (q :: ps)

/-- The text without the characters of `p` at its start. -/
def trimStart (p : Char → Bool) (s : List Char) : List Char :=
  s.dropWhile p

/-- The text without the characters of `p` at its end. -/
def trimEnd (p : Char → Bool) (s : List Char) : List Char :=
  (s.reverse.dropWhile p).reverse

/-- The text without the characters of `p` at either end. -/
def trim (p : Char → Bool) (s : List Char) : List Char :=
  trimEnd p (trimStart p s)

/-- What follows `front` in a text that starts with it. -/
def afterFront? : List Char → List Char → Option (List Char)
  | [], s => some s
  | _ :: _, [] => none
  | c :: front, x :: s => if c = x then afterFront? front s else none

/-- What precedes `c` at the end of a text. -/
def beforeLast? (c : Char) (s : List Char) : Option (List Char) :=
  match s.reverse with
  | [] => none
  | x :: r => if x = c then some r.reverse else none

/-- `split` on `String`. -/
def splitText (c : Char) (s : String) : List String :=
  (split c s.toList).map String.ofList

/-- `trim` on `String`. -/
def trimText (p : Char → Bool) (s : String) : String :=
  String.ofList (trim p s.toList)

/-! ## Laws -/

theorem split_ne_nil (c : Char) (s : List Char) : split c s ≠ [] := by
  cases s with
  | nil => simp [split]
  | cons x r =>
    unfold split
    split
    · simp
    · split <;> simp

theorem split_cons_self (c : Char) (r : List Char) : split c (c :: r) = [] :: split c r := by
  simp [split]

theorem split_cons_of_ne {c x : Char} (h : x ≠ c) (r : List Char) :
    ∃ p ps, split c r = p :: ps ∧ split c (x :: r) = (x :: p) :: ps := by
  cases hr : split c r with
  | nil => exact absurd hr (split_ne_nil c r)
  | cons p ps => exact ⟨p, ps, rfl, by simp [split, h, hr]⟩

/-- The first piece is what stands before the first character of `p`. -/
theorem head?_splitWhere (p : Char → Bool) (s : List Char) :
    (splitWhere p s).head? = some (s.takeWhile fun c => !p c) := by
  induction s with
  | nil => rfl
  | cons x r ih =>
    cases hx : p x with
    | true => simp [splitWhere, hx]
    | false =>
      obtain ⟨qs, hr⟩ := List.head?_eq_some_iff.mp ih
      simp [splitWhere, hx, hr]

theorem join_cons_of_ne_nil (c : Char) (p : List Char) {ps : List (List Char)} (h : ps ≠ []) :
    join c (p :: ps) = p ++ c :: join c ps := by
  cases ps with
  | nil => exact absurd rfl h
  | cons q qs => rfl

theorem join_cons_cons (c x : Char) (p : List Char) (ps : List (List Char)) :
    join c ((x :: p) :: ps) = x :: join c (p :: ps) := by
  cases ps <;> rfl

theorem join_split (c : Char) (s : List Char) : join c (split c s) = s := by
  induction s with
  | nil => rfl
  | cons x r ih =>
    by_cases h : x = c
    · subst h
      rw [split_cons_self, join_cons_of_ne_nil _ _ (split_ne_nil x r), ih]
      rfl
    · obtain ⟨p, ps, hr, hx⟩ := split_cons_of_ne h r
      rw [hx, join_cons_cons, ← hr, ih]

theorem not_mem_of_mem_split {c : Char} {s p : List Char} (h : p ∈ split c s) : c ∉ p := by
  induction s generalizing p with
  | nil => simp [split] at h; simp [h]
  | cons x r ih =>
    by_cases hx : x = c
    · subst hx
      rw [split_cons_self] at h
      rcases List.mem_cons.1 h with rfl | h
      · simp
      · exact ih h
    · obtain ⟨q, qs, hr, he⟩ := split_cons_of_ne hx r
      rw [he] at h
      rcases List.mem_cons.1 h with rfl | h
      · have : c ∉ q := ih (by simp [hr])
        simp [this, Ne.symm hx]
      · exact ih (by simp [hr, h])

theorem split_of_not_mem {c : Char} {p : List Char} (h : c ∉ p) : split c p = [p] := by
  induction p with
  | nil => rfl
  | cons x r ih =>
    have hx : x ≠ c := fun e => h (by simp [e])
    have hr : c ∉ r := fun e => h (by simp [e])
    simp [split, hx, ih hr]

theorem split_append_cons {c : Char} {p : List Char} (h : c ∉ p) (s : List Char) :
    split c (p ++ c :: s) = p :: split c s := by
  induction p with
  | nil => exact split_cons_self c s
  | cons x r ih =>
    have hx : x ≠ c := fun e => h (by simp [e])
    have hr : c ∉ r := fun e => h (by simp [e])
    simp [split, hx, ih hr]

theorem split_join {c : Char} {ps : List (List Char)} (hne : ps ≠ []) (h : ∀ p ∈ ps, c ∉ p) :
    split c (join c ps) = ps := by
  induction ps with
  | nil => exact absurd rfl hne
  | cons p qs ih =>
    cases qs with
    | nil => exact split_of_not_mem (h p (by simp))
    | cons q qs =>
      rw [join_cons_of_ne_nil c p (by simp), split_append_cons (h p (by simp)),
        ih (by simp) (fun x hx => h x (by simp [hx]))]

/-- Nothing but separators separates nothing. -/
theorem forall_split_eq_nil_iff {c : Char} {s : List Char} :
    (∀ p ∈ split c s, p = []) ↔ ∀ x ∈ s, x = c := by
  induction s with
  | nil => simp [split]
  | cons x r ih =>
    by_cases hx : x = c
    · subst hx
      rw [split_cons_self, List.forall_mem_cons, List.forall_mem_cons, ih]
      exact and_congr_left fun _ => by simp
    · obtain ⟨p, ps, -, he⟩ := split_cons_of_ne hx r
      rw [he, List.forall_mem_cons, List.forall_mem_cons]
      exact ⟨fun h => absurd h.1 (by simp), fun h => absurd h.1 hx⟩

theorem splitText_ne_nil (c : Char) (s : String) : splitText c s ≠ [] := fun h =>
  split_ne_nil c s.toList (List.map_eq_nil_iff.mp h)

theorem join_splitText (c : Char) (s : String) :
    String.ofList (join c ((splitText c s).map String.toList)) = s := by
  have h : ((split c s.toList).map String.ofList).map String.toList = split c s.toList := by
    simp [List.map_map, Function.comp_def]
  rw [splitText, h, join_split, String.ofList_toList]

theorem splitText_injective {c : Char} {s t : String} (h : splitText c s = splitText c t) :
    s = t := by
  rw [← join_splitText c s, h, join_splitText]

theorem afterFront?_append (front s : List Char) : afterFront? front (front ++ s) = some s := by
  induction front with
  | nil => rfl
  | cons c front ih => simp [afterFront?, ih]

theorem eq_append_of_afterFront? {front s r : List Char} (h : afterFront? front s = some r) :
    s = front ++ r := by
  induction front generalizing s with
  | nil => simpa [afterFront?] using h
  | cons c front ih =>
    cases s with
    | nil => simp [afterFront?] at h
    | cons x s =>
      by_cases hx : c = x
      · subst hx
        simp only [afterFront?, if_true] at h
        simp [ih h]
      · simp [afterFront?, hx] at h

theorem split_append_self (c : Char) (s t : List Char) :
    split c (s ++ c :: t) = split c s ++ split c t := by
  induction s with
  | nil => exact split_cons_self c t
  | cons x r ih =>
    by_cases h : x = c
    · subst h
      rw [List.cons_append, split_cons_self, split_cons_self, ih, List.cons_append]
    · obtain ⟨p, ps, hr, hx⟩ := split_cons_of_ne h r
      rw [hr, List.cons_append] at ih
      simp [split, h, hr, ih]

theorem join_cons (c : Char) (p : List Char) (ps : List (List Char)) :
    join c (p :: ps) = p ++ ps.flatMap fun q => c :: q := by
  induction ps generalizing p with
  | nil => simp [join]
  | cons q qs ih =>
    rw [join_cons_of_ne_nil c p (by simp), ih q, List.flatMap_cons, List.cons_append]

theorem join_append (c : Char) {ps : List (List Char)} (h : ps ≠ []) (qs : List (List Char)) :
    join c (ps ++ qs) = join c ps ++ qs.flatMap fun q => c :: q := by
  cases ps with
  | nil => exact absurd rfl h
  | cons p ps => rw [List.cons_append, join_cons, join_cons, List.flatMap_append, List.append_assoc]

/-- Nothing as the last piece puts a separator behind each of the others. -/
theorem join_append_nil (c : Char) (ps : List (List Char)) :
    join c (ps ++ [[]]) = ps.flatMap fun p => p ++ [c] := by
  induction ps with
  | nil => rfl
  | cons p ps ih =>
    rw [List.cons_append, join_cons_of_ne_nil c p (by simp), ih, List.flatMap_cons,
      List.append_assoc, List.singleton_append]

/-- Pieces with a separator behind each of them are recovered, whatever follows. -/
theorem split_flatMap_append {c : Char} {ps : List (List Char)} (h : ∀ p ∈ ps, c ∉ p)
    (s : List Char) : split c ((ps.flatMap fun p => p ++ [c]) ++ s) = ps ++ split c s := by
  induction ps with
  | nil => rfl
  | cons p ps ih =>
    obtain ⟨hp, hps⟩ := List.forall_mem_cons.mp h
    rw [List.flatMap_cons, List.append_assoc, List.append_assoc, List.singleton_append,
      split_append_cons hp, ih hps, List.cons_append]

theorem mem_join_of_mem {c x : Char} {p : List Char} {ps : List (List Char)} (hp : p ∈ ps)
    (hx : x ∈ p) : x ∈ join c ps := by
  cases ps with
  | nil => exact absurd hp List.not_mem_nil
  | cons q qs =>
    rw [join_cons]
    rcases List.mem_cons.mp hp with rfl | hp
    · exact List.mem_append_left _ hx
    · exact List.mem_append_right _ (List.mem_flatMap.mpr ⟨p, hp, List.mem_cons_of_mem _ hx⟩)

theorem eq_or_mem_of_mem_join {c x : Char} {ps : List (List Char)} (h : x ∈ join c ps) :
    x = c ∨ ∃ p ∈ ps, x ∈ p := by
  cases ps with
  | nil => exact absurd h List.not_mem_nil
  | cons q qs =>
    rw [join_cons] at h
    rcases List.mem_append.mp h with h | h
    · exact Or.inr ⟨q, List.mem_cons_self, h⟩
    · obtain ⟨p, hp, hx⟩ := List.mem_flatMap.mp h
      exact (List.mem_cons.mp hx).imp id fun hx => ⟨p, List.mem_cons_of_mem _ hp, hx⟩

theorem beforeLast?_eq_some_iff {c : Char} {s before : List Char} :
    beforeLast? c s = some before ↔ s = before ++ [c] := by
  have hreverse : s = before ++ [c] ↔ s.reverse = c :: before.reverse := by
    rw [← List.reverse_inj, List.reverse_append]
    rfl
  rw [hreverse, beforeLast?]
  cases s.reverse with
  | nil => simp
  | cons x r =>
    rw [List.cons.injEq, Option.ite_none_right_eq_some, Option.some.injEq, List.reverse_eq_iff]

theorem beforeLast?_eq_none_iff {c : Char} {s : List Char} :
    beforeLast? c s = none ↔ ¬ ∃ before, s = before ++ [c] := by
  simp only [← beforeLast?_eq_some_iff, Option.eq_none_iff_forall_ne_some, not_exists, ne_eq]

/-- There is one more piece than there are separators. -/
theorem length_split (c : Char) (s : List Char) : (split c s).length = s.count c + 1 := by
  induction s with
  | nil => rfl
  | cons x r ih =>
    by_cases hx : x = c
    · subst hx
      rw [split_cons_self, List.length_cons, ih, List.count_cons_self]
    · obtain ⟨p, ps, hr, he⟩ := split_cons_of_ne hx r
      rw [hr, List.length_cons] at ih
      rw [he, List.length_cons, List.count_cons_of_ne hx, ih]

/-- Two pieces are what stands before and after the only separator. -/
theorem split_eq_pair_iff {c : Char} {s before after : List Char} :
    split c s = [before, after] ↔ s = before ++ c :: after ∧ c ∉ before ∧ c ∉ after := by
  constructor
  · intro h
    refine ⟨?_, not_mem_of_mem_split (s := s) (by simp [h]),
      not_mem_of_mem_split (s := s) (by simp [h])⟩
    rw [← join_split c s, h]
    rfl
  · rintro ⟨rfl, hbefore, hafter⟩
    rw [split_append_cons hbefore, split_of_not_mem hafter]

theorem exists_pair_of_count {c : Char} {s : List Char} (h : s.count c = 1) :
    ∃ before after, s = before ++ c :: after ∧ c ∉ before ∧ c ∉ after := by
  have hlength := length_split c s
  rw [h] at hlength
  rcases hpair : split c s with _ | ⟨before, _ | ⟨after, _ | ⟨p, ps⟩⟩⟩
  · simp [hpair] at hlength
  · simp [hpair] at hlength
  · exact ⟨before, after, split_eq_pair_iff.mp hpair⟩
  · simp [hpair] at hlength

/-- The only separator of a text is at one place. -/
theorem eq_of_append_cons {c : Char} {before before' after after' : List Char}
    (hbefore : c ∉ before) (hafter : c ∉ after)
    (h : before ++ c :: after = before' ++ c :: after') : before = before' ∧ after = after' := by
  have hpair : split c (before' ++ c :: after') = [before, after] :=
    split_eq_pair_iff.mpr ⟨h.symm, hbefore, hafter⟩
  rw [split_append_self] at hpair
  have hlength := congrArg List.length hpair
  have hb := length_split c before'
  have ha := length_split c after'
  rw [List.length_append, List.length_cons, List.length_cons, List.length_nil] at hlength
  have hb' : c ∉ before' := List.count_eq_zero.mp (by omega)
  have ha' : c ∉ after' := List.count_eq_zero.mp (by omega)
  rw [split_of_not_mem hb', split_of_not_mem ha'] at hpair
  simpa [eq_comm] using hpair

theorem trimStart_eq_self {p : Char → Bool} {s : List Char} (h : ∀ c ∈ s.head?, p c = false) :
    trimStart p s = s := by
  cases s with
  | nil => rfl
  | cons c r => simp [trimStart, h c rfl]

theorem trimEnd_eq_self {p : Char → Bool} {s : List Char} (h : ∀ c ∈ s.getLast?, p c = false) :
    trimEnd p s = s := by
  have : s.reverse.dropWhile p = s.reverse :=
    trimStart_eq_self fun c hc => h c (by rwa [List.head?_reverse] at hc)
  rw [trimEnd, this, List.reverse_reverse]

theorem trimEnd_concat {p : Char → Bool} {c : Char} (h : p c = true) (s : List Char) :
    trimEnd p (s ++ [c]) = trimEnd p s := by
  simp [trimEnd, h]

/-- A text that neither starts nor ends with a character of `p` is left as it is. -/
theorem trim_eq_self {p : Char → Bool} {s : List Char} (hs : ∀ c ∈ s.head?, p c = false)
    (he : ∀ c ∈ s.getLast?, p c = false) : trim p s = s := by
  rw [trim, trimStart_eq_self hs, trimEnd_eq_self he]

theorem head?_trimStart (p : Char → Bool) (s : List Char) :
    ∀ c ∈ (trimStart p s).head?, p c = false := by
  induction s with
  | nil => simp [trimStart]
  | cons x r ih =>
    intro c hc
    by_cases hx : p x = true
    · rw [trimStart, List.dropWhile_cons_of_pos hx] at hc
      exact ih c hc
    · rw [trimStart, List.dropWhile_cons_of_neg hx] at hc
      obtain rfl := Option.some.inj hc
      simpa using hx

theorem getLast?_trimEnd (p : Char → Bool) (s : List Char) :
    ∀ c ∈ (trimEnd p s).getLast?, p c = false := by
  intro c hc
  rw [trimEnd, List.getLast?_reverse] at hc
  exact head?_trimStart p s.reverse c hc

theorem trimEnd_prefix (p : Char → Bool) (s : List Char) : trimEnd p s <+: s := by
  have h : s.reverse.dropWhile p <:+ s.reverse := List.dropWhile_suffix p
  rw [← List.reverse_prefix, List.reverse_reverse] at h
  exact h

theorem trimStart_eq_nil_iff {p : Char → Bool} {s : List Char} :
    trimStart p s = [] ↔ ∀ c ∈ s, p c = true := by
  induction s with
  | nil => simp [trimStart]
  | cons x r ih =>
    by_cases hx : p x = true
    · rw [trimStart, List.dropWhile_cons_of_pos hx, List.forall_mem_cons]
      exact ⟨fun h => ⟨hx, ih.mp h⟩, fun h => ih.mpr h.2⟩
    · rw [trimStart, List.dropWhile_cons_of_neg hx, List.forall_mem_cons]
      exact ⟨fun h => absurd h (by simp), fun h => absurd h.1 hx⟩

/-- Nothing is left of a text iff it has characters of `p` only. -/
theorem trim_eq_nil_iff {p : Char → Bool} {s : List Char} :
    trim p s = [] ↔ ∀ c ∈ s, p c = true := by
  constructor
  · intro h
    refine trimStart_eq_nil_iff.mp ?_
    cases hs : trimStart p s with
    | nil => rfl
    | cons x r =>
      have hx : p x = false := head?_trimStart p s x (by simp [hs])
      rw [trim, hs, trimEnd, List.reverse_eq_nil_iff] at h
      have := trimStart_eq_nil_iff.mp h x (by simp)
      rw [hx] at this
      exact absurd this (by simp)
  · intro h
    rw [trim, trimStart_eq_nil_iff.mpr h]
    rfl

/-- A trimmed text does not start with a character of `p`. -/
theorem head?_trim (p : Char → Bool) (s : List Char) : ∀ c ∈ (trim p s).head?, p c = false := by
  intro c hc
  obtain ⟨t, ht⟩ := trimEnd_prefix p (trimStart p s)
  refine head?_trimStart p s c ?_
  rw [← ht]
  rw [trim] at hc
  cases hu : trimEnd p (trimStart p s) with
  | nil => rw [hu] at hc; simp at hc
  | cons x r => rw [hu] at hc; simpa using hc

/-- Trimming twice is trimming once. -/
theorem trim_trim (p : Char → Bool) (s : List Char) : trim p (trim p s) = trim p s :=
  trim_eq_self (head?_trim p s) (getLast?_trimEnd p _)

end Routing.Text
