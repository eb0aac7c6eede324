import Routing.Text.Html

/-!
# Escaped texts are read back

What a page shows of a text is the text with its entities read: in one pass from left to right,
an ampersand that starts no entity standing for itself.

* `unescapeChars_escapeChars`: reading an escaped text gives the text back, also where it looks
  escaped already.
* `not_mem_escapeChars`: an escaped text holds neither an angle bracket nor a quote.
* `exists_entity_prefix`: every ampersand in it starts an entity.
* `escape_lossless`: so nothing is lost by escaping, and texts may be escaped piece by piece.
-/

namespace Routing.Text.Html

/-- The text with its entities read. -/
def unescapeChars : List Char → List Char
  | '&' :: 'a' :: 'm' :: 'p' :: ';' :: s => '&' :: unescapeChars s
  | '&' :: 'q' :: 'u' :: 'o' :: 't' :: ';' :: s => '"' :: unescapeChars s
  | '&' :: 'a' :: 'p' :: 'o' :: 's' :: ';' :: s => '\'' :: unescapeChars s
  | '&' :: 'l' :: 't' :: ';' :: s => '<' :: unescapeChars s
  | '&' :: 'g' :: 't' :: ';' :: s => '>' :: unescapeChars s
  | c :: s => c :: unescapeChars s
  | [] => []

/-- The text with its entities read. -/
def unescape (s : String) : String :=
  String.ofList (unescapeChars s.toList)

/-- The characters that are written as entities. -/
def special : List Char :=
  ['&', '"', '\'', '<', '>']

/-- The entities. -/
def entities : List String :=
  ["&amp;", "&quot;", "&apos;", "&lt;", "&gt;"]

theorem unescapeChars_cons {c : Char} (h : c ≠ '&') (s : List Char) :
    unescapeChars (c :: s) = c :: unescapeChars s := by
  rw [unescapeChars] <;> exact fun _ hc => absurd hc h

theorem unescapeChars_append_of_not_mem {p : List Char} (h : '&' ∉ p) (s : List Char) :
    unescapeChars (p ++ s) = p ++ unescapeChars s := by
  induction p with
  | nil => rfl
  | cons c p ih =>
    obtain ⟨hc, hp⟩ := List.ne_and_not_mem_of_not_mem_cons h
    rw [List.cons_append, unescapeChars_cons (Ne.symm hc), ih hp, List.cons_append]

theorem escapeChar_of_not_mem {c : Char} (h : c ∉ special) : escapeChar c = [c] := by
  simp only [special, List.mem_cons, List.not_mem_nil, or_false, not_or] at h
  obtain ⟨hamp, hquot, hapos, hlt, hgt⟩ := h
  rw [escapeChar] <;> assumption

/-- The written form of a character reads as the character, whatever follows. -/
theorem unescapeChars_escapeChar_append (c : Char) (s : List Char) :
    unescapeChars (escapeChar c ++ s) = c :: unescapeChars s := by
  by_cases h : c ∈ special
  · simp only [special, List.mem_cons, List.not_mem_nil, or_false] at h
    rcases h with rfl | rfl | rfl | rfl | rfl <;> rfl
  · have hamp : c ≠ '&' := fun hc => h (hc ▸ List.mem_cons_self)
    rw [escapeChar_of_not_mem h, List.singleton_append, unescapeChars_cons hamp]

/-- **Reading an escaped text gives the text.** -/
theorem unescapeChars_escapeChars (s : List Char) : unescapeChars (escapeChars s) = s := by
  induction s with
  | nil => rfl
  | cons c s ih =>
    rw [escapeChars, List.flatMap_cons, unescapeChars_escapeChar_append, ← escapeChars, ih]

theorem not_mem_escapeChar {x : Char} (hx : x ∈ special) (hamp : x ≠ '&') (c : Char) :
    x ∉ escapeChar c := by
  intro hmem
  by_cases h : c ∈ special
  · have entities : (special.all fun c => (escapeChar c).all fun y =>
        y == '&' || !special.contains y) = true := by decide
    simp only [List.all_eq_true, Bool.or_eq_true, beq_iff_eq, Bool.not_eq_true',
      List.contains_eq_mem, decide_eq_false_iff_not] at entities
    exact (entities c h x hmem).elim hamp fun hplain => hplain hx
  · rw [escapeChar_of_not_mem h, List.mem_singleton] at hmem
    exact h (hmem ▸ hx)

/-- **Of the special characters, an escaped text holds ampersands only.** -/
theorem not_mem_escapeChars {x : Char} (hx : x ∈ special) (hamp : x ≠ '&') (s : List Char) :
    x ∉ escapeChars s := by
  intro h
  obtain ⟨c, -, hc⟩ := List.mem_flatMap.mp h
  exact not_mem_escapeChar hx hamp c hc

/-! ## Entities -/

/-- A special character is written as an entity, which has one ampersand at its start. -/
theorem escapeChar_of_mem {c : Char} (h : c ∈ special) :
    ∃ e ∈ entities, ∃ r, e.toList = escapeChar c ∧ escapeChar c = '&' :: r ∧ '&' ∉ r := by
  simp only [special, List.mem_cons, List.not_mem_nil, or_false] at h
  rcases h with rfl | rfl | rfl | rfl | rfl
  · exact ⟨"&amp;", by decide, _, rfl, rfl, by decide⟩
  · exact ⟨"&quot;", by decide, _, rfl, rfl, by decide⟩
  · exact ⟨"&apos;", by decide, _, rfl, rfl, by decide⟩
  · exact ⟨"&lt;", by decide, _, rfl, rfl, by decide⟩
  · exact ⟨"&gt;", by decide, _, rfl, rfl, by decide⟩

/-- An ampersand in the written form of a character is the start of an entity. -/
theorem entity_of_escapeChar_eq {c : Char} {before after : List Char}
    (h : escapeChar c = before ++ '&' :: after) :
    ∃ e ∈ entities, e.toList = '&' :: after := by
  by_cases hc : c ∈ special
  · obtain ⟨e, he, r, hwritten, hr, hnot⟩ := escapeChar_of_mem hc
    refine ⟨e, he, ?_⟩
    cases before with
    | nil => rw [hwritten, h, List.nil_append]
    | cons x before =>
      -- the ampersand would be a second one
      obtain ⟨-, hrest⟩ := List.cons.inj (hr.symm.trans h)
      rw [hrest] at hnot
      exact absurd (List.mem_append_right _ List.mem_cons_self) hnot
  · have hmem : '&' ∈ escapeChar c := h ▸ List.mem_append_right _ List.mem_cons_self
    rw [escapeChar_of_not_mem hc, List.mem_singleton] at hmem
    exact absurd (hmem ▸ List.mem_cons_self) hc

/-- **Every ampersand in an escaped text starts an entity.** -/
theorem exists_entity_prefix {s before after : List Char}
    (h : escapeChars s = before ++ '&' :: after) :
    ∃ e ∈ entities, e.toList <+: '&' :: after := by
  induction s generalizing before with
  | nil => simp [escapeChars] at h
  | cons c s ih =>
    rw [escapeChars, List.flatMap_cons, ← escapeChars] at h
    rcases List.append_eq_append_iff.mp h with ⟨rest, -, hrest⟩ | ⟨part, hpart, hafter⟩
    · exact ih hrest
    · cases part with
      | nil =>
        have hrest : escapeChars s = [] ++ '&' :: after := hafter.symm
        exact ih hrest
      | cons x part =>
        obtain ⟨rfl, hafter⟩ := List.cons.inj hafter
        obtain ⟨e, he, hwritten⟩ := entity_of_escapeChar_eq hpart
        refine ⟨e, he, ?_⟩
        rw [hwritten, hafter]
        exact List.prefix_append ('&' :: part) (escapeChars s)

/-! ## Texts -/

/-- **Nothing is lost by escaping.** Reading an escaped text gives the text; the escaped text holds
no angle bracket and no quote, and every ampersand in it starts an entity; and texts that are
escaped one by one and put together are escaped together. -/
theorem escape_lossless :
    (∀ s : String, unescape (escape s) = s) ∧
    (∀ s : String, ∀ c ∈ (escape s).toList, c ≠ '<' ∧ c ≠ '>' ∧ c ≠ '"' ∧ c ≠ '\'') ∧
    (∀ (s : String) (before after : List Char), (escape s).toList = before ++ '&' :: after →
      ∃ e ∈ entities, e.toList <+: '&' :: after) ∧
    ∀ s t : String, escape (s ++ t) = escape s ++ escape t := by
  have htoList : ∀ s : String, (escape s).toList = escapeChars s.toList := fun s =>
    String.toList_ofList
  refine ⟨fun s => ?_, fun s c hc => ?_, fun s before after h => ?_, fun s t => ?_⟩
  · rw [unescape, htoList, unescapeChars_escapeChars, String.ofList_toList]
  · rw [htoList] at hc
    have hne : ∀ x ∈ special, x ≠ '&' → c ≠ x := fun x hx hamp heq =>
      not_mem_escapeChars hx hamp s.toList (heq ▸ hc)
    exact ⟨hne _ (by decide) (by decide), hne _ (by decide) (by decide),
      hne _ (by decide) (by decide), hne _ (by decide) (by decide)⟩
  · exact exists_entity_prefix ((htoList s).symm.trans h)
  · refine String.toList_inj.mp ?_
    rw [String.toList_append, htoList, htoList, htoList, String.toList_append, escapeChars_append]

/-- A text that looks escaped already is escaped once more. -/
theorem escape_lossless_escaped :
    unescape (escape "&amp;lt;'") = "&amp;lt;'" ∧
      ∃ e ∈ entities, e.toList <+: '&' :: "apos;".toList :=
  ⟨escape_lossless.1 _,
    escape_lossless.2.2.1 "&amp;lt;'" "&amp;amp;lt;".toList "apos;".toList (by decide)⟩

end Routing.Text.Html
