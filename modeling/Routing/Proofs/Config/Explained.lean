import Routing.Proofs.Config.Rows

/-!
# Which rows of settings are explained

There is a comment for each header and each setting. A line with brackets of both kinds is taken for
a header, and so is that of a setting whose value has both: nothing is found under its text, and the
setting stays without its comment. All other rows get theirs, as a name has no brackets, no equals
sign and no blanks.

* `block_chars`: the comment that a row gets.
* `bracketed_encode`: a quoted text has the brackets of the text.
* `explain_render`: which settings get all their comments.
* `explain_render_address`: an address in brackets is one that does not.
-/

namespace Routing.Config

open Toml (Row)

/-- What the comment on a row is filed under: the header with its brackets, or the name of the
setting. -/
def subjectOf? : Row → Option String
  | .blank => none
  | .header k => some ("[" ++ k ++ "]")
  | .entry k _ _ => some k

/-- The comment that belongs to a row. -/
def explanation (r : Row) : List Char :=
  match subjectOf? r with
  | some s => ((Comments.blocks.lookup s).getD "").toList
  | none => []

/-- Whether a text has brackets of both kinds. -/
def Bracketed (s : List Char) : Prop :=
  '[' ∈ s ∧ ']' ∈ s

instance (s : List Char) : Decidable (Bracketed s) :=
  inferInstanceAs (Decidable (_ ∧ _))

/-- Whether a row is a setting that is taken for a header. -/
def Mistaken : Row → Prop
  | .entry _ text _ => Bracketed text
  | _ => False

instance (r : Row) : Decidable (Mistaken r) :=
  match r with
  | .blank => inferInstanceAs (Decidable False)
  | .header _ => inferInstanceAs (Decidable False)
  | .entry _ text _ => inferInstanceAs (Decidable (Bracketed text))

/-! ## The comment on a row -/

theorem lt_of_isWordChar {c : Char} (h : Toml.isWordChar c = true) : c.toNat < 128 := by
  have hbound : ∀ d : Char, d.toNat < 128 → c.val ≤ d.val → c.toNat < 128 := fun d hd hc =>
    Nat.lt_of_le_of_lt hc hd
  simp only [Toml.isWordChar, Bool.or_eq_true, decide_eq_true_eq] at h
  rcases h with (h | rfl) | rfl
  · rcases Bool.or_eq_true_iff.mp h with h | h
    · rcases Bool.or_eq_true_iff.mp h with h | h
      · exact hbound 'Z' (by decide) (of_decide_eq_true h).2
      · exact hbound 'z' (by decide) (of_decide_eq_true (Bool.and_eq_true_iff.mp h).2)
    · exact hbound '9' (by decide) (of_decide_eq_true (Bool.and_eq_true_iff.mp h).2)
  · decide
  · decide

/-- Words have no blanks. -/
theorem isBlank_of_isWordChar {c : Char} (h : Toml.isWordChar c = true) :
    Text.isBlank c = false := by
  have hascii := Toml.forall_ascii (p := fun c => !(Toml.isWordChar c && Text.isBlank c))
    (by decide +kernel) (lt_of_isWordChar h)
  simpa [h] using hascii

theorem trim_word {w : List Char} (h : Toml.IsWord w) :
    Text.trim Text.isBlank (w ++ [' ']) = w := by
  obtain ⟨c, r, rfl⟩ := List.exists_cons_of_ne_nil h.1
  have hblank : ∀ x ∈ c :: r, Text.isBlank x = false := fun x hx => isBlank_of_isWordChar (h.2 x hx)
  have hstart : Text.trimStart Text.isBlank (c :: r ++ [' ']) = c :: r ++ [' '] :=
    Text.trimStart_eq_self fun x hx => hblank x (by simp_all)
  rw [Text.trim, hstart, Text.trimEnd_concat (by decide)]
  exact Text.trimEnd_eq_self fun x hx => hblank x (List.mem_of_mem_getLast? hx)

/-- Nothing is filed under a text with an equals sign. -/
theorem lookup_eq_none_of_mem {s : String} (h : '=' ∈ s.toList) :
    Comments.blocks.lookup s = none := by
  have hnames : (Comments.blocks.all fun e => !e.1.toList.contains '=') = true := by
    decide +kernel
  rw [List.lookup_eq_none_iff]
  intro e he
  have hname := List.all_eq_true.mp hnames e he
  rw [bne_iff_ne]
  rintro rfl
  simp [h] at hname

/-- A header is filed under itself. -/
theorem subject?_header (k : String) :
    Comments.subject? (Row.header k).chars = some ("[" ++ k ++ "]") := by
  have htext : String.ofList (Row.header k).chars = "[" ++ k ++ "]" := by
    refine String.toList_inj.mp ?_
    simp [Row.chars]
  rw [← htext]
  simp [Comments.subject?, Row.chars]

theorem contains_entry {k : String} (hk : Toml.IsWord k.toList) (text : List Char)
    (v : Option Toml.Value) {c : Char} (hc : Toml.isWordChar c = false) (hsign : c ∉ " = ".toList) :
    (Row.entry k text v).chars.contains c = text.contains c := by
  have hword := Toml.not_mem_of_isWord hk hc
  rw [Bool.eq_iff_iff, List.contains_iff_mem, List.contains_iff_mem, Row.chars, List.mem_append,
    List.mem_append]
  simp only [hword, hsign, false_or]

/-- A setting is filed under its name, unless its line is mistaken for a header. -/
theorem subject?_entry {k : String} (hk : Toml.IsWord k.toList) (text : List Char)
    (v : Option Toml.Value) :
    Comments.subject? (Row.entry k text v).chars
      = if Bracketed text then some (String.ofList (Row.entry k text v).chars) else some k := by
  have hopening := contains_entry hk text v (c := '[') (by decide) (by decide)
  have hclosing := contains_entry hk text v (c := ']') (by decide) (by decide)
  have hsign : (Row.entry k text v).chars.contains '=' = true := by simp [Row.chars]
  have hname : (Row.entry k text v).chars.takeWhile (fun c => c ≠ '=') = k.toList ++ [' '] := by
    have hchars : (Row.entry k text v).chars = (k.toList ++ [' ']) ++ '=' :: ' ' :: text := by
      simp [Row.chars]
    have hkey : ∀ c ∈ k.toList ++ [' '], decide (c ≠ '=') = true := fun c hc => by
      rcases List.mem_append.mp hc with hc | hc
      · exact decide_eq_true fun heq => Toml.not_mem_of_isWord hk (by decide) (heq ▸ hc)
      · rw [List.mem_singleton.mp hc]
        decide
    rw [hchars, List.takeWhile_append_of_pos hkey, List.takeWhile_cons_of_neg (by simp),
      List.append_nil]
  unfold Comments.subject?
  rw [hopening, hclosing, hsign, hname, trim_word hk, String.ofList_toList]
  by_cases hb : Bracketed text
  · rw [if_pos hb, if_pos (by simp [hb.1, hb.2])]
  · have hno : ¬ (text.contains '[' && text.contains ']') = true := by
      simpa [Bracketed] using hb
    rw [if_neg hb, if_neg hno, if_pos rfl]

/-- **The comment that a row gets**: the one that belongs to it, unless the row is mistaken for a
header. -/
theorem block_chars {r : Row} (h : r.Legal) :
    Comments.block r.chars = if Mistaken r then [] else explanation r := by
  cases r with
  | blank => rfl
  | header k =>
    rw [if_neg (show ¬ Mistaken (.header k) from id), Comments.block, subject?_header]
    rfl
  | entry k text v =>
    rw [Comments.block, subject?_entry h.1]
    by_cases hb : Bracketed text
    · rw [if_pos hb, if_pos (show Mistaken (.entry k text v) from hb)]
      have hsign : '=' ∈ (String.ofList (Row.entry k text v).chars).toList := by
        simp [Row.chars]
      simp [lookup_eq_none_of_mem hsign]
    · rw [if_neg hb, if_neg (show ¬ Mistaken (.entry k text v) from hb)]
      rfl

/-! ## Brackets in values -/

theorem mem_encodeChar_iff {x : Char} (hx : x = '[' ∨ x = ']') (c : Char) :
    x ∈ Toml.Quoted.encodeChar c ↔ c = x := by
  by_cases hc : c.toNat < 128
  · have hchar := Toml.forall_ascii
      (p := fun c => decide ('[' ∈ Toml.Quoted.encodeChar c ↔ c = '[') &&
        decide (']' ∈ Toml.Quoted.encodeChar c ↔ c = ']'))
      (by decide +kernel) hc
    rw [Bool.and_eq_true, decide_eq_true_iff, decide_eq_true_iff] at hchar
    rcases hx with rfl | rfl
    · exact hchar.1
    · exact hchar.2
  · rw [Toml.encodeChar_of_not_ascii hc, List.mem_singleton, eq_comm]

theorem mem_encode_iff {x : Char} (hx : x = '[' ∨ x = ']') (s : List Char) :
    x ∈ Toml.Quoted.encode s ↔ x ∈ s := by
  have hquote : x ≠ '"' := by rcases hx with rfl | rfl <;> decide
  simp [Toml.Quoted.encode, hquote, mem_encodeChar_iff hx]

/-- **A quoted text has the brackets of the text.** -/
theorem bracketed_encode (s : List Char) : Bracketed (Toml.Quoted.encode s) ↔ Bracketed s :=
  and_congr (mem_encode_iff (.inl rfl) s) (mem_encode_iff (.inr rfl) s)

theorem mistaken_textRow (name text : String) :
    Mistaken (textRow name text) ↔ Bracketed text.toList :=
  bracketed_encode text.toList

theorem not_bracketed_levelName (l : Log.Level) : ¬ Bracketed (levelName l).toList := by
  cases l <;> decide

theorem not_mistaken_header (k : String) : ¬ Mistaken (.header k) :=
  id

theorem not_mistaken_blank : ¬ Mistaken .blank :=
  id

theorem not_mistaken_numberRow (name : String) (n : Nat) : ¬ Mistaken (numberRow name n) := fun h =>
  Toml.not_mem_of_isDigit
    (fun _ hc => Nat.isDigit_of_mem_toDigits (by decide) (by decide) hc) (by decide) h.1

theorem not_mistaken_truthRow (name : String) (b : Bool) : ¬ Mistaken (truthRow name b) := by
  cases b <;> exact show ¬ Bracketed _ by decide

/-! ## The rows of settings -/

/-- The texts among the values of settings. -/
def Settings.texts (s : Settings) : List String :=
  [s.server.bindAddress, s.server.basePath, s.server.serviceName] ++
    match s.log with
    | some l => [l.filePath]
    | none => []

theorem ServerSettings.mistaken_rows (s : ServerSettings) :
    (∃ r ∈ s.rows, Mistaken r) ↔
      ∃ t ∈ [s.bindAddress, s.basePath, s.serviceName], Bracketed t.toList := by
  simp [rows, mistaken_textRow, not_mistaken_header, not_mistaken_numberRow]

theorem LogSettings.mistaken_rows (l : LogSettings) :
    (∃ r ∈ l.rows, Mistaken r) ↔ Bracketed l.filePath.toList := by
  unfold rows
  cases l.maxSize <;>
    simp [mistaken_textRow, not_bracketed_levelName, not_mistaken_header, not_mistaken_numberRow,
      not_mistaken_truthRow]

/-- **Settings with a row that is mistaken for a header** are those with a bracketed text. -/
theorem Settings.mistaken_rows (s : Settings) :
    (∃ r ∈ s.rows, Mistaken r) ↔ ∃ t ∈ s.texts, Bracketed t.toList := by
  obtain ⟨server, log⟩ := s
  unfold rows texts
  simp only [List.mem_append, or_and_right, exists_or, server.mistaken_rows]
  refine or_congr_right ?_
  cases log with
  | none => simp
  | some l => simp [not_mistaken_blank, l.mistaken_rows]

/-- Whether there is a comment that belongs to a row. -/
def isDocumented (r : Row) : Bool :=
  (subjectOf? r).any fun name => (Comments.blocks.lookup name).isSome

theorem ServerSettings.documented_rows (s : ServerSettings) : s.rows.all isDocumented = true :=
  rfl

theorem LogSettings.documented_rows (l : LogSettings) : l.rows.all isDocumented = true := by
  unfold rows
  cases l.maxSize <;> rfl

/-- **There is a comment for every row** that is not empty. -/
theorem Settings.documented_rows (s : Settings) :
    ∀ r ∈ s.rows, r = .blank ∨ isDocumented r = true := by
  unfold rows
  intro r hr
  rcases List.mem_append.mp hr with hr | hr
  · exact .inr (List.all_eq_true.mp s.server.documented_rows r hr)
  · cases hlog : s.log with
    | none => simp [hlog] at hr
    | some l =>
      rw [hlog] at hr
      refine (List.mem_cons.mp hr).imp_right fun hr => ?_
      exact List.all_eq_true.mp l.documented_rows r hr

theorem explanation_ne_nil {r : Row} (h : isDocumented r = true) : explanation r ≠ [] := by
  have hblocks : (Comments.blocks.all fun e => e.2 ≠ "") = true := by decide +kernel
  unfold isDocumented at h
  cases hname : subjectOf? r with
  | none => simp [hname] at h
  | some name =>
    rw [hname, Option.any_some] at h
    obtain ⟨b, hb⟩ := Option.isSome_iff_exists.mp h
    obtain ⟨before, after, hsplit, -⟩ := List.lookup_eq_some_iff.mp hb
    have hmem : (name, b) ∈ Comments.blocks :=
      hsplit ▸ List.mem_append_right _ List.mem_cons_self
    have hne := of_decide_eq_true (List.all_eq_true.mp hblocks _ hmem)
    rw [explanation, hname]
    simp only [hb, Option.getD_some]
    exact fun hnil => hne (String.toList_eq_nil_iff.mp hnil)

/-! ## The explained text -/

/-- The lines of settings are their rows, and nothing after the last line feed. -/
theorem Settings.split_render (s : Settings) :
    Text.split '\n' s.render.toList = (s.rows ++ [Row.blank]).map Row.chars := by
  have hlines : ∀ p ∈ s.rows.map Row.chars, '\n' ∉ p := fun p hp => by
    obtain ⟨r, hr, rfl⟩ := List.mem_map.mp hp
    exact (not_mem_chars (s.legal_rows r hr)).1
  have htext : s.render.toList = (s.rows.map Row.chars).flatMap (fun p => p ++ ['\n']) ++ [] := by
    rw [s.toList_render, textOf, List.flatMap_map, List.append_nil]
  rw [htext, Text.split_flatMap_append hlines, List.map_append]
  rfl

/-- **Which settings get their comments.** The lines of settings are the rows, and in the explained
text each row stands behind the comment that belongs to it, unless its value has brackets of both
kinds: then it is taken for a header, and nothing stands in front of it. There is a comment for
every row but the empty ones, and it is missing somewhere iff there is a text with brackets of both
kinds among the values. -/
theorem explain_render (s : Settings) :
    Text.split '\n' s.render.toList = (s.rows ++ [Row.blank]).map Row.chars ∧
    (Comments.explain s.render).toList = (s.rows ++ [Row.blank]).flatMap (fun r =>
      (if Mistaken r then [] else explanation r) ++ r.chars ++ ['\n']) ∧
    (∀ r ∈ s.rows, explanation r = [] ↔ r = .blank) ∧
    ((∃ r ∈ s.rows, Mistaken r) ↔ ∃ t ∈ s.texts, Bracketed t.toList) := by
  refine ⟨s.split_render, ?_, fun r hr => ?_, s.mistaken_rows⟩
  · have hlegal : ∀ r ∈ s.rows ++ [Row.blank], r.Legal :=
      List.forall_mem_append.mpr ⟨s.legal_rows, List.forall_mem_singleton.mpr trivial⟩
    rw [Comments.explain, String.toList_ofList, Comments.explainChars, s.split_render,
      List.flatMap_map, List.flatMap_def, List.flatMap_def]
    refine congrArg List.flatten (List.map_congr_left fun r hr => ?_)
    rw [Comments.explainLine, block_chars (hlegal r hr)]
  · rcases s.documented_rows r hr with rfl | hdocumented
    · exact iff_of_true rfl rfl
    · refine iff_of_false (explanation_ne_nil hdocumented) ?_
      rintro rfl
      exact absurd hdocumented (by decide)

theorem remarks_of_mistaken {r : Row} (hlegal : r.Legal) (h : Mistaken r) :
    Comments.remarks r.chars = [] := by
  rw [Comments.remarks, block_chars hlegal, if_pos h]
  rfl

/-- **An address in brackets is written without its comment**: its line stands in one place of the
explained text, and the line before it there is the header. -/
theorem explain_render_address :
    let s : Settings := { server := { bindAddress := "[::1]" } }
    let row := textRow "bind_address" "[::1]"
    row ∈ s.rows ∧ explanation row ≠ [] ∧
      ∃ before after, Text.split '\n' (Comments.explain s.render).toList
          = before ++ row.chars :: after ∧
        before.getLast? = some (Row.header "server").chars ∧
        row.chars ∉ before ∧ row.chars ∉ after := by
  intro s row
  have hrow : row ∈ s.rows := List.mem_cons_of_mem _ List.mem_cons_self
  have hmistaken : Comments.remarks row.chars = [] :=
    remarks_of_mistaken (s.legal_rows row hrow) (by decide)
  let rest : List Row := s.rows.drop 2 ++ [.blank]
  have hlines : Text.split '\n' s.render.toList
      = (Row.header "server").chars :: row.chars :: rest.map Row.chars := s.split_render
  -- the line is no remark, and no other line of the settings
  have hremark : ¬ Comments.IsRemark row.chars := by decide
  have hne : row.chars ≠ [] := fun h => hremark (.inl h)
  have hrest : row.chars ∉ rest.map Row.chars := by decide +kernel
  refine ⟨hrow, explanation_ne_nil (by decide),
    Comments.remarks (Row.header "server").chars ++ [(Row.header "server").chars],
    (rest.map Row.chars).flatMap (fun l => Comments.remarks l ++ [l]) ++ [[]], ?_,
    List.getLast?_concat, ?_, ?_⟩
  · rw [Comments.split_explain, hlines, List.flatMap_cons, List.flatMap_cons, hmistaken,
      List.append_assoc _ _ [[]]]
    rfl
  · rw [Comments.mem_remarks_append_iff hremark]
    decide
  · simpa [Comments.mem_remarks_append_iff hremark, hne] using hrest

end Routing.Config
