import Routing.Config.Comments

/-!
# Comments leave the lines of a text alone

Every comment is made of whole lines, which are empty or start with a hash. So the line that a
comment stands in front of starts a line of the explained text as well, and this has the lines of
the text and remarks between them. What it adds last is the nothing after a line feed.

* `remarks_of_block`: a comment is whole lines, all of them remarks.
* `split_explain`: the lines of an explained text.
* `explain_annotates`: these are the lines of the text, in their order, and remarks.
-/

namespace Routing.Config

/-- A comment is one of the blocks, or empty. -/
theorem block_cases (line : List Char) :
    Comments.block line = [] ∨ ∃ e ∈ Comments.blocks, Comments.block line = e.2.toList := by
  unfold Comments.block
  cases Comments.subject? line with
  | none => exact .inl rfl
  | some s =>
    cases hb : Comments.blocks.lookup s with
    | none => exact .inl (by simp [hb])
    | some b =>
      obtain ⟨l, r, hl, -⟩ := List.lookup_eq_some_iff.mp hb
      refine .inr ⟨(s, b), ?_, by simp [hb]⟩
      rw [hl]
      exact List.mem_append_right _ List.mem_cons_self

namespace Comments

/-- A line that sets nothing: it is empty, or a hash makes it a comment. -/
def IsRemark (line : List Char) : Prop :=
  line = [] ∨ line.head? = some '#'

instance (line : List Char) : Decidable (IsRemark line) :=
  inferInstanceAs (Decidable (line = [] ∨ line.head? = some '#'))

/-- `Annotated lines explained`: the lines stand in `explained` as they are, each once and in their
order, and everything else there is a remark. -/
inductive Annotated : List (List Char) → List (List Char) → Prop
  | nil : Annotated [] []
  | remark {r : List Char} {lines explained : List (List Char)} :
    IsRemark r → Annotated lines explained → Annotated lines (r :: explained)
  | line (l : List Char) {lines explained : List (List Char)} :
    Annotated lines explained → Annotated (l :: lines) (l :: explained)

theorem Annotated.remarks {rs lines explained : List (List Char)} (h : ∀ r ∈ rs, IsRemark r)
    (ha : Annotated lines explained) : Annotated lines (rs ++ explained) := by
  induction rs with
  | nil => exact ha
  | cons r rs ih =>
    obtain ⟨hr, hrs⟩ := List.forall_mem_cons.mp h
    exact .remark hr (ih hrs)

/-- Without the remarks the same lines are left. -/
theorem Annotated.filter_eq {lines explained : List (List Char)} (h : Annotated lines explained) :
    explained.filter (fun l => ¬ IsRemark l) = lines.filter (fun l => ¬ IsRemark l) := by
  induction h with
  | nil => rfl
  | remark hr _ ih => rw [List.filter_cons_of_neg (by simpa using hr), ih]
  | line l _ ih => rw [List.filter_cons, List.filter_cons, ih]

/-! ## The blocks -/

/-- Whole lines, all of them remarks without control characters. -/
def OfRemarks (text : List Char) : Prop :=
  ∃ rs : List (List Char), text = rs.flatMap (fun r => r ++ ['\n']) ∧
    ∀ r ∈ rs, IsRemark r ∧ ∀ c ∈ r, 0x20 ≤ c.toNat

theorem OfRemarks.append {s t : String} (hs : OfRemarks s.toList) (ht : OfRemarks t.toList) :
    OfRemarks (s ++ t).toList := by
  obtain ⟨rs, hrs, hremarks⟩ := hs
  obtain ⟨rs', hrs', hremarks'⟩ := ht
  exact ⟨rs ++ rs', by rw [String.toList_append, hrs, hrs', List.flatMap_append],
    List.forall_mem_append.mpr ⟨hremarks, hremarks'⟩⟩

/-- Whether a line is a remark without control characters. -/
def isCleanRemark (line : List Char) : Bool :=
  IsRemark line && line.all fun c => 0x20 ≤ c.toNat

theorem ofRemarks_ofList {text : List Char} (hend : (Text.split '\n' text).getLast? = some [])
    (h : (Text.split '\n' text).all isCleanRemark = true) : OfRemarks (String.ofList text).toList := by
  obtain ⟨rs, hrs⟩ := List.getLast?_eq_some_iff.mp hend
  refine ⟨rs, ?_, fun r hr => ?_⟩
  · rw [String.toList_ofList, ← Text.join_append_nil, ← hrs, Text.join_split]
  · have hremark := List.all_eq_true.mp h r (hrs ▸ List.mem_append_left _ hr)
    simpa [isCleanRemark] using hremark

/-- All blocks are whole lines, and these are remarks. -/
theorem ofRemarks_of_blocks : ∀ e ∈ blocks, OfRemarks e.2.toList := by
  simp only [blocks, List.forall_mem_cons]
  refine ⟨.append (.append (.append (.append (.append ?_ ?_) ?_) ?_) ?_) ?_, ?_, ?_, ?_, ?_,
    .append (.append ?_ ?_) ?_, ?_, ?_, ?_, ?_, ?_, ?_, .append ?_ ?_, ?_, nofun⟩
  all_goals
    refine ofRemarks_ofList ?_ ?_ <;> decide +kernel

theorem ofRemarks_block (line : List Char) : OfRemarks (block line) := by
  rcases block_cases line with h | ⟨e, he, h⟩
  · rw [h]
    exact ⟨[], rfl, nofun⟩
  · rw [h]
    exact ofRemarks_of_blocks e he

/-- The lines of the comment on a line, without the nothing after its last line feed. -/
def remarks (line : List Char) : List (List Char) :=
  (Text.split '\n' (block line)).dropLast

/-- **A comment is whole lines, all of them remarks.** -/
theorem remarks_of_block (line : List Char) :
    block line = (remarks line).flatMap (fun r => r ++ ['\n']) ∧
      ∀ r ∈ remarks line, '\n' ∉ r ∧ IsRemark r := by
  obtain ⟨rs, hblock, hrs⟩ := ofRemarks_block line
  have hpieces : ∀ r ∈ rs, '\n' ∉ r := fun r hr hmem => absurd ((hrs r hr).2 _ hmem) (by decide)
  have hremarks : remarks line = rs := by
    rw [remarks, hblock, ← List.append_nil (List.flatMap _ _), Text.split_flatMap_append hpieces]
    exact List.dropLast_concat
  rw [hremarks]
  exact ⟨hblock, fun r hr => ⟨hpieces r hr, (hrs r hr).1⟩⟩

/-! ## Lines -/

/-- A line that is no remark is explained by none like it. -/
theorem mem_remarks_append_iff {l line : List Char} (h : ¬ IsRemark l) :
    l ∈ remarks line ++ [line] ↔ l = line := by
  rw [List.mem_append, List.mem_singleton]
  exact or_iff_right fun hl => h ((remarks_of_block line).2 l hl).2

theorem explainLine_eq_flatMap (line : List Char) :
    explainLine line = (remarks line ++ [line]).flatMap fun r => r ++ ['\n'] := by
  rw [explainLine, List.flatMap_append, ← (remarks_of_block line).1, List.append_assoc]
  simp

/-- **The lines of an explained text**: each line of the text behind its comment, and nothing after
the last line feed. -/
theorem split_explain (text : String) :
    Text.split '\n' (explain text).toList
      = ((Text.split '\n' text.toList).flatMap fun l => remarks l ++ [l]) ++ [[]] := by
  have hpieces : ∀ p ∈ (Text.split '\n' text.toList).flatMap (fun l => remarks l ++ [l]),
      '\n' ∉ p := by
    intro p hp
    obtain ⟨l, hl, hp⟩ := List.mem_flatMap.mp hp
    rcases List.mem_append.mp hp with hp | hp
    · exact ((remarks_of_block l).2 p hp).1
    · exact List.mem_singleton.mp hp ▸ Text.not_mem_of_mem_split hl
  have hlines : (explain text).toList
      = ((Text.split '\n' text.toList).flatMap fun l => remarks l ++ [l]).flatMap
          fun r => r ++ ['\n'] := by
    rw [explain, String.toList_ofList, explainChars, List.flatMap_assoc]
    exact congrArg (List.flatMap · _) (funext explainLine_eq_flatMap)
  rw [hlines, ← List.append_nil (List.flatMap _ _), Text.split_flatMap_append hpieces]
  rfl

theorem annotated_flatMap (lines : List (List Char)) :
    Annotated lines ((lines.flatMap fun l => remarks l ++ [l]) ++ [[]]) := by
  induction lines with
  | nil => exact .remark (.inl rfl) .nil
  | cons l lines ih =>
    have hl := ih.line l
    rw [List.flatMap_cons, List.append_assoc, List.append_assoc]
    exact hl.remarks fun r hr => ((remarks_of_block l).2 r hr).2

/-- **Explaining a text adds remarks to its lines.** The lines of the text are left as they are,
each once and in their order, and everything else is empty or a comment, so that the same lines are
left without these. Remarks stand in whole lines in front of the line that they explain. -/
theorem explain_annotates (text : String) :
    let lines := Text.split '\n' text.toList
    let explained := Text.split '\n' (explain text).toList
    Annotated lines explained ∧
      explained.filter (fun l => ¬ IsRemark l) = lines.filter (fun l => ¬ IsRemark l) ∧
      explained = (lines.flatMap fun l => remarks l ++ [l]) ++ [[]] ∧
      ∀ l, block l = (remarks l).flatMap (fun r => r ++ ['\n']) ∧ ∀ r ∈ remarks l, IsRemark r := by
  intro lines explained
  have hexplained : explained = (lines.flatMap fun l => remarks l ++ [l]) ++ [[]] :=
    split_explain text
  have hannotated : Annotated lines explained := hexplained ▸ annotated_flatMap lines
  exact ⟨hannotated, hannotated.filter_eq, hexplained,
    fun l => ⟨(remarks_of_block l).1, fun r hr => ((remarks_of_block l).2 r hr).2⟩⟩

end Comments

end Routing.Config
