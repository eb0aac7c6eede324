import Mathlib.Tactic.SplitIfs
import Routing.Proofs.Matcher.Faults

/-!
# The grammar of labels

A segment of a template is a literal unless it starts with `<`; then it has to be `<string:name>` or
`<int:name>` with a name that is not empty and has no colon. Rendering a label gives back the one
segment that it was read from. What is not in the grammar is refused for the first of six conditions
that it does not meet.

* `ofChars_of_denotes`, `denotes_of_ofChars`: what is read off the segments of the grammar.
* `ofChars_eq_error_iff`: a refusal names the first condition that is not met.
* `parse_grammar`: the grammar, the way back and the refusals.
-/

namespace Routing.Label

/-- A text between angle brackets. -/
def bracketed (inner : List Char) : List Char :=
  '<' :: (inner ++ ['>'])

/-- The label that a segment denotes: a literal its own text, a placeholder a kind and a name. -/
inductive Denotes : String → Label → Prop
  | literal {s : String} : s ≠ "" → s.toList.head? ≠ some '<' → Denotes s ⟨.literal, s⟩
  | string {n : String} : n ≠ "" → ':' ∉ n.toList → Denotes ("<string:" ++ n ++ ">") ⟨.string, n⟩
  | int {n : String} : n ≠ "" → ':' ∉ n.toList → Denotes ("<int:" ++ n ++ ">") ⟨.int, n⟩

/-- The reasons for refusing a segment, in the order in which they are looked for. -/
def reasons : List Malformation :=
  [.emptySegment, .unclosed, .notTypeAndName, .missingType, .missingName, .unknownType]

/-- A segment does not meet the condition behind a reason. -/
def Breaks (s : List Char) : Malformation → Prop
  | .emptySegment => s = []
  | .unclosed => s.head? = some '<' ∧ ¬ ∃ inner, s = bracketed inner
  | .notTypeAndName => ∃ inner, s = bracketed inner ∧ inner.count ':' ≠ 1
  | .missingType => ∃ name, s = bracketed (':' :: name)
  | .missingName => ∃ type, s = bracketed (type ++ [':'])
  | .unknownType => ∃ type name, s = bracketed (type ++ ':' :: name) ∧
      type ≠ "string".toList ∧ type ≠ "int".toList
  | .other _ => False

/-- A reason is the first one whose condition a segment does not meet. -/
def FirstBroken (s : List Char) : Malformation → Prop :=
  Matcher.FirstFault (fun reason found => Breaks s reason ∧ found = reason) reasons

/-- What a segment looks like. -/
inductive Shape : List Char → Prop
  | empty : Shape []
  | literal {s : List Char} : s ≠ [] → s.head? ≠ some '<' → Shape s
  | unclosed {r : List Char} : (¬ ∃ inner, r = inner ++ ['>']) → Shape ('<' :: r)
  | uncut {inner : List Char} : inner.count ':' ≠ 1 → Shape (bracketed inner)
  | pair {type name : List Char} : ':' ∉ type → ':' ∉ name →
    Shape (bracketed (type ++ ':' :: name))

theorem shape (s : List Char) : Shape s := by
  by_cases hs : s = []
  · exact hs ▸ .empty
  by_cases hhead : s.head? = some '<'
  · obtain ⟨r, rfl⟩ := List.head?_eq_some_iff.mp hhead
    by_cases hclosed : ∃ inner, r = inner ++ ['>']
    · obtain ⟨inner, rfl⟩ := hclosed
      by_cases hcount : inner.count ':' = 1
      · obtain ⟨type, name, rfl, htype, hname⟩ := Text.exists_pair_of_count hcount
        exact .pair htype hname
      · exact .uncut hcount
    · exact .unclosed hclosed
  · exact .literal hs hhead

theorem bracketed_inj {inner inner' : List Char} :
    bracketed inner = bracketed inner' ↔ inner = inner' := by
  simp [bracketed]

theorem bracketed_ne_nil (inner : List Char) : bracketed inner ≠ [] := nofun

theorem head?_bracketed (inner : List Char) : (bracketed inner).head? = some '<' := rfl

variable {inner type name r s : List Char} {reason : Malformation}

/-! ## What is read -/

theorem ofChars_literal (hs : s ≠ []) (hhead : s.head? ≠ some '<') :
    ofChars s = .ok ⟨.literal, String.ofList s⟩ := by
  unfold ofChars
  split
  · exact absurd rfl hs
  · exact absurd rfl hhead
  · rfl

theorem ofChars_unclosed (h : ¬ ∃ inner, r = inner ++ ['>']) :
    ofChars ('<' :: r) = .error .unclosed := by
  rw [ofChars, Text.beforeLast?_eq_none_iff.mpr h]

theorem ofChars_bracketed : ofChars (bracketed inner) = ofInner inner := by
  rw [bracketed, ofChars, Text.beforeLast?_eq_some_iff.mpr rfl]

theorem ofInner_uncut (h : inner.count ':' ≠ 1) : ofInner inner = .error .notTypeAndName := by
  unfold ofInner
  split
  next kind name hpair =>
    have hlength := Text.length_split ':' inner
    rw [hpair] at hlength
    exact absurd (Nat.succ.inj hlength).symm h
  next => rfl

theorem ofInner_pair (htype : ':' ∉ type) (hname : ':' ∉ name) :
    ofInner (type ++ ':' :: name)
      = if type = [] then .error .missingType
        else if name = [] then .error .missingName
        else if type = "string".toList then .ok ⟨.string, String.ofList name⟩
        else if type = "int".toList then .ok ⟨.int, String.ofList name⟩
        else .error .unknownType := by
  rw [ofInner, Text.split_eq_pair_iff.mpr ⟨rfl, htype, hname⟩]
  rfl

theorem toList_string (n : String) :
    ("<string:" ++ n ++ ">").toList = bracketed ("string".toList ++ ':' :: n.toList) := by
  simp [bracketed]

theorem toList_int (n : String) :
    ("<int:" ++ n ++ ">").toList = bracketed ("int".toList ++ ':' :: n.toList) := by
  simp [bracketed]

/-- **The segments of the grammar are read as what they denote.** -/
theorem ofChars_of_denotes {t : String} {l : Label} (h : Denotes t l) :
    ofChars t.toList = .ok l := by
  cases h with
  | literal hs hhead =>
    rw [ofChars_literal (by simpa using hs) hhead, String.ofList_toList]
  | @string n hn hcolon =>
    rw [toList_string, ofChars_bracketed, ofInner_pair (by decide) hcolon]
    simp [hn]
  | @int n hn hcolon =>
    rw [toList_int, ofChars_bracketed, ofInner_pair (by decide) hcolon]
    simp [hn]

theorem denotes_of_ofChars {t : String} {l : Label} (h : ofChars t.toList = .ok l) :
    Denotes t l := by
  generalize hs : t.toList = s at h
  cases shape s with
  | empty => cases h
  | literal hne hhead =>
    rw [ofChars_literal hne hhead] at h
    cases h
    rw [← hs, String.ofList_toList]
    exact .literal (fun e => hne (by rw [← hs, e]; rfl)) (hs ▸ hhead)
  | unclosed hr => rw [ofChars_unclosed hr] at h; cases h
  | uncut hcount => rw [ofChars_bracketed, ofInner_uncut hcount] at h; cases h
  | @pair type name htype hname =>
    rw [ofChars_bracketed, ofInner_pair htype hname] at h
    have hchars : (String.ofList name).toList = name := String.toList_ofList
    have hne : String.ofList name ≠ "" ↔ name ≠ [] := by simp
    have hcolon : ':' ∉ (String.ofList name).toList := by rwa [hchars]
    split_ifs at h with _ hn hstring hint
    · cases h
      have ht : t = "<string:" ++ String.ofList name ++ ">" := by
        rw [← String.toList_inj, hs, toList_string, hchars, hstring]
      exact ht ▸ .string (hne.mpr hn) hcolon
    · cases h
      have ht : t = "<int:" ++ String.ofList name ++ ">" := by
        rw [← String.toList_inj, hs, toList_int, hchars, hint]
      exact ht ▸ .int (hne.mpr hn) hcolon

/-! ## Refusals -/

/-- A segment is refused for the first condition that it does not meet. -/
theorem refused_iff {first : Malformation} (before : List Malformation) {after : List Malformation}
    (hof : ofChars s = .error first) (hreasons : reasons = before ++ first :: after)
    (hbefore : ∀ b ∈ before, ¬ Breaks s b) (hbreaks : Breaks s first) :
    ofChars s = .error reason ↔ FirstBroken s reason := by
  have hfirst : FirstBroken s first :=
    ⟨before, first, after, hreasons, fun b hb _ h => hbefore b hb h.1, hbreaks, rfl⟩
  rw [hof, Except.error.injEq]
  refine ⟨fun h => h ▸ hfirst, fun h => ?_⟩
  exact hfirst.unique (fun _ _ _ h h' => h.2.trans h'.2.symm) h

/-- A segment that meets all conditions is not refused. -/
theorem accepted_iff {l : Label} (hof : ofChars s = .ok l) (hmeets : ∀ b, ¬ Breaks s b) :
    ofChars s = .error reason ↔ FirstBroken s reason := by
  rw [hof]
  refine iff_of_false nofun ?_
  rintro ⟨-, b, -, -, -, hbreaks, -⟩
  exact hmeets b hbreaks

/-- Literals meet all conditions. -/
theorem not_breaks_literal (hs : s ≠ []) (hhead : s.head? ≠ some '<') (b : Malformation) :
    ¬ Breaks s b := by
  intro h
  cases b with
  | emptySegment => exact hs h
  | unclosed => exact hhead h.1
  | notTypeAndName =>
    obtain ⟨inner, rfl, -⟩ := h
    exact hhead (head?_bracketed _)
  | missingType =>
    obtain ⟨name, rfl⟩ := h
    exact hhead (head?_bracketed _)
  | missingName =>
    obtain ⟨type, rfl⟩ := h
    exact hhead (head?_bracketed _)
  | unknownType =>
    obtain ⟨type, name, rfl, -⟩ := h
    exact hhead (head?_bracketed _)
  | other => exact h

theorem breaks_notTypeAndName_iff :
    Breaks (bracketed inner) .notTypeAndName ↔ inner.count ':' ≠ 1 := by
  simp only [Breaks, bracketed_inj, exists_eq_left']

/-- What a placeholder with a type and a name does not meet. -/
theorem breaks_pair_iff (htype : ':' ∉ type) (hname : ':' ∉ name) :
    Breaks (bracketed (type ++ ':' :: name)) reason
      ↔ (reason = .missingType ∧ type = []) ∨ (reason = .missingName ∧ name = []) ∨
        (reason = .unknownType ∧ type ≠ "string".toList ∧ type ≠ "int".toList) := by
  have hparts {type' name'} (h : type ++ ':' :: name = type' ++ ':' :: name') :
      type = type' ∧ name = name' := Text.eq_of_append_cons htype hname h
  cases reason with
  | emptySegment => simp [Breaks, bracketed_ne_nil]
  | unclosed => simp [Breaks, bracketed_inj]
  | notTypeAndName =>
    have hcount : (type ++ ':' :: name).count ':' = 1 := by
      rw [List.count_append, List.count_cons_self, List.count_eq_zero.mpr htype,
        List.count_eq_zero.mpr hname]
    simp [breaks_notTypeAndName_iff, hcount]
  | missingType =>
    simp only [true_and, reduceCtorEq, false_and, or_false, Breaks, bracketed_inj]
    constructor
    · rintro ⟨name', h⟩
      exact (@hparts [] name' h).1
    · rintro rfl
      exact ⟨name, rfl⟩
  | missingName =>
    simp only [true_and, reduceCtorEq, false_and, false_or, or_false, Breaks, bracketed_inj]
    constructor
    · rintro ⟨type', h⟩
      exact (hparts h).2
    · rintro rfl
      exact ⟨type, rfl⟩
  | unknownType =>
    simp only [true_and, reduceCtorEq, false_and, false_or, Breaks, bracketed_inj]
    constructor
    · rintro ⟨type', name', h, hunknown⟩
      exact (hparts h).1 ▸ hunknown
    · intro hunknown
      exact ⟨type, name, rfl, hunknown⟩
  | other => simp [Breaks]

theorem not_breaks_pair (htype : ':' ∉ type) (hname : ':' ∉ name) (ht : type ≠ []) (hn : name ≠ [])
    (hknown : type = "string".toList ∨ type = "int".toList) (b : Malformation) :
    ¬ Breaks (bracketed (type ++ ':' :: name)) b := by
  intro h
  rcases (breaks_pair_iff htype hname).mp h with ⟨-, h⟩ | ⟨-, h⟩ | ⟨-, hstring, hint⟩
  · exact ht h
  · exact hn h
  · exact hknown.elim hstring hint

/-- **A refusal names the first condition that is not met.** -/
theorem ofChars_eq_error_iff : ofChars s = .error reason ↔ FirstBroken s reason := by
  cases shape s with
  | empty => exact refused_iff [] rfl rfl nofun rfl
  | literal hs hhead => exact accepted_iff (ofChars_literal hs hhead) (not_breaks_literal hs hhead)
  | @unclosed r h =>
    refine refused_iff [.emptySegment] (ofChars_unclosed h) rfl ?_ ?_
    · simp [Breaks]
    · simpa [Breaks, bracketed] using h
  | @uncut inner h =>
    refine refused_iff [.emptySegment, .unclosed]
      (ofChars_bracketed.trans (ofInner_uncut h)) rfl ?_ (breaks_notTypeAndName_iff.mpr h)
    simp [Breaks, bracketed_inj, bracketed_ne_nil]
  | @pair type name htype hname =>
    have hof := ofChars_bracketed.trans (ofInner_pair htype hname)
    have hbreaks {reason : Malformation} :
        Breaks (bracketed (type ++ ':' :: name)) reason ↔ _ := breaks_pair_iff htype hname
    by_cases ht : type = []
    · exact refused_iff [.emptySegment, .unclosed, .notTypeAndName]
        (by rw [hof, if_pos ht]) rfl (by simp [hbreaks]) (hbreaks.mpr (.inl ⟨rfl, ht⟩))
    rw [if_neg ht] at hof
    by_cases hn : name = []
    · exact refused_iff [.emptySegment, .unclosed, .notTypeAndName, .missingType]
        (by rw [hof, if_pos hn]) rfl (by simp [hbreaks, ht])
        (hbreaks.mpr (.inr (.inl ⟨rfl, hn⟩)))
    rw [if_neg hn] at hof
    by_cases hstring : type = "string".toList
    · exact accepted_iff (by rw [hof, if_pos hstring])
        (not_breaks_pair htype hname ht hn (.inl hstring))
    rw [if_neg hstring] at hof
    by_cases hint : type = "int".toList
    · exact accepted_iff (by rw [hof, if_pos hint])
        (not_breaks_pair htype hname ht hn (.inr hint))
    · rw [if_neg hint] at hof
      exact refused_iff reasons.dropLast hof rfl (by simp [reasons, hbreaks, ht, hn])
        (hbreaks.mpr (.inr (.inr ⟨rfl, hstring, hint⟩)))

/-! ## Segments of templates -/

/-- Rendering gives back the segment that a label was read from. -/
theorem render_of_denotes {t : String} {l : Label} (h : Denotes t l) : l.render = t := by
  cases h <;> rfl

variable {uri segment : String} {l : Label}

theorem parse_eq_ok_iff : parse uri segment = .ok l ↔ Denotes segment l := by
  have hof : parse uri segment = .ok l ↔ ofChars segment.toList = .ok l := by
    unfold parse
    cases ofChars segment.toList <;> simp
  rw [hof]
  exact ⟨denotes_of_ofChars, ofChars_of_denotes⟩

theorem parse_eq_error_iff {e : BuildError} :
    parse uri segment = .error e ↔ ∃ reason, FirstBroken segment.toList reason ∧
      e = .malformedTemplate uri segment reason := by
  simp only [← ofChars_eq_error_iff]
  unfold parse
  cases ofChars segment.toList <;> simp [eq_comm]

/-- Some label is denoted by the literals and the placeholders, and by nothing else. -/
theorem exists_denotes_iff {t : String} :
    (∃ l, Denotes t l) ↔ t ≠ "" ∧ (t.toList.head? ≠ some '<' ∨
      ∃ n, n ≠ "" ∧ ':' ∉ n.toList ∧ (t = "<string:" ++ n ++ ">" ∨ t = "<int:" ++ n ++ ">")) := by
  constructor
  · rintro ⟨l, h⟩
    cases h with
    | literal hs hhead => exact ⟨hs, .inl hhead⟩
    | string hn hcolon => exact ⟨by simp, .inr ⟨_, hn, hcolon, .inl rfl⟩⟩
    | int hn hcolon => exact ⟨by simp, .inr ⟨_, hn, hcolon, .inr rfl⟩⟩
  · rintro ⟨hs, hhead | ⟨n, hn, hcolon, rfl | rfl⟩⟩
    · exact ⟨_, .literal hs hhead⟩
    · exact ⟨_, .string hn hcolon⟩
    · exact ⟨_, .int hn hcolon⟩

/-- **The grammar of labels.** A segment is read iff it is a literal, which is not empty and does not
start with `<`, or a placeholder for a text or an integer under a name that is not empty and has no
colon. What is read gives the segment back when it is rendered, and the rendered segment is read as
the same label in any template. Every other segment is refused with the template and the segment as
they stand, for the first condition that it does not meet. -/
theorem parse_grammar (uri segment : String) :
    ((∃ l, parse uri segment = .ok l) ↔ segment ≠ "" ∧ (segment.toList.head? ≠ some '<' ∨
        ∃ n, n ≠ "" ∧ ':' ∉ n.toList ∧
          (segment = "<string:" ++ n ++ ">" ∨ segment = "<int:" ++ n ++ ">"))) ∧
      (∀ l, parse uri segment = .ok l ↔ Denotes segment l) ∧
      (∀ l, parse uri segment = .ok l →
        l.render = segment ∧ ∀ uri', parse uri' l.render = .ok l) ∧
      ∀ e, parse uri segment = .error e ↔ ∃ reason, FirstBroken segment.toList reason ∧
        e = .malformedTemplate uri segment reason := by
  refine ⟨?_, fun l => parse_eq_ok_iff, fun l h => ?_, fun e => parse_eq_error_iff⟩
  · simp only [parse_eq_ok_iff, exists_denotes_iff]
  · have hdenotes := parse_eq_ok_iff.mp h
    have hrender := render_of_denotes hdenotes
    exact ⟨hrender, fun uri' => parse_eq_ok_iff.mpr (hrender.symm ▸ hdenotes)⟩

example : parse "a/<int::n>" "<int::n>" =
    .error (.malformedTemplate "a/<int::n>" "<int::n>" .notTypeAndName) := rfl

end Routing.Label
