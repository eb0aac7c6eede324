import Routing.Config.Load
import Routing.Proofs.Config.Remarks
import Routing.Proofs.Toml.Lines

/-!
# Settings as the rows of a file

Settings are printed as rows, and the comments that a new file gets stand in front of them. Comments
are passed over, and no row holds a line end, so the file reads as the lines of its rows.

* `toList_render`: settings are printed row by row.
* `explainChars_textOf`: each row gets its comment.
* `ofText?_explain`: the file reads as the lines of its rows, if all of them are read.
-/

namespace Routing.Config

open Toml (Row Prints)

/-- The row of a text. -/
def textRow (name text : String) : Row :=
  .entry name (Toml.Quoted.encode text.toList) (some (.text text))

/-- The row of a number, which is not read if it does not have 64 bits with its sign. -/
def numberRow (name : String) (n : Nat) : Row :=
  .entry name (Nat.toDigits 10 n) (Toml.integer? false n)

/-- The row of a truth value. -/
def truthRow (name : String) (b : Bool) : Row :=
  .entry name (truth b).toList (some (.boolean b))

/-- The rows of the settings of the server. -/
def ServerSettings.rows (s : ServerSettings) : List Row :=
  [.header "server", textRow "bind_address" s.bindAddress,
    numberRow "bind_port" s.bindPort.toNat, textRow "base_path" s.basePath,
    textRow "service_name" s.serviceName]

/-- The rows of the settings of the log. -/
def LogSettings.rows (l : LogSettings) : List Row :=
  [.header "logging", truthRow "log_to_stdout" l.toStdout,
    textRow "stdout_log_level" (levelName l.stdoutLevel), truthRow "log_to_file" l.toFile,
    textRow "file_log_level" (levelName l.fileLevel), textRow "log_file_path" l.filePath,
    truthRow "log_file_append" l.append]
    ++ (match l.maxSize with
      | some n => [numberRow "log_max_size" n.toNat]
      | none => [])
    ++ [numberRow "log_max_files" l.maxFiles.toNat]

/-- The rows of all settings. -/
def Settings.rows (s : Settings) : List Row :=
  s.server.rows ++
    match s.log with
    | some l => .blank :: l.rows
    | none => []

/-! ## Printing -/

/-- The text of rows, each with its line end. -/
def textOf (rows : List Row) : List Char :=
  rows.flatMap fun r => r.chars ++ ['\n']

theorem textOf_cons (r : Row) (rows : List Row) :
    textOf (r :: rows) = r.chars ++ ['\n'] ++ textOf rows :=
  List.flatMap_cons

theorem textOf_append (rows more : List Row) : textOf (rows ++ more) = textOf rows ++ textOf more :=
  List.flatMap_append

theorem toList_assignment (name value : String) (v : Option Toml.Value) :
    (assignment name value).toList = (Row.entry name value.toList v).chars ++ ['\n'] := by
  simp [assignment, Row.chars]

theorem toList_textRow (name text : String) :
    (assignment name (quoted text)).toList = (textRow name text).chars ++ ['\n'] := by
  have htext : (quoted text).toList = Toml.Quoted.encode text.toList := String.toList_ofList
  rw [toList_assignment name _ (some (.text text)), htext]
  rfl

theorem toList_numberRow (name : String) (n : Nat) :
    (assignment name (toString n)).toList = (numberRow name n).chars ++ ['\n'] := by
  have htext : (toString n).toList = Nat.toDigits 10 n := Nat.toList_repr
  rw [toList_assignment name _ (Toml.integer? false n), htext]
  rfl

theorem toList_truthRow (name : String) (b : Bool) :
    (assignment name (truth b)).toList = (truthRow name b).chars ++ ['\n'] :=
  toList_assignment name _ _

theorem ServerSettings.toList_render (s : ServerSettings) : s.render.toList = textOf s.rows := by
  unfold render
  simp only [String.toList_append, toList_textRow, toList_numberRow, rows, textOf_cons]
  simp [textOf, Row.chars]

theorem LogSettings.toList_render (l : LogSettings) : l.render.toList = textOf l.rows := by
  unfold render rows
  cases l.maxSize
  all_goals
    simp only [String.toList_append, toList_textRow, toList_numberRow, toList_truthRow,
      textOf_append, textOf_cons]
    simp [textOf, Row.chars]

/-- **Settings are printed row by row.** -/
theorem Settings.toList_render (s : Settings) : s.render.toList = textOf s.rows := by
  unfold render rows
  rw [String.toList_append, textOf_append, s.server.toList_render]
  cases s.log with
  | none => rfl
  | some l =>
    simp only [String.toList_append, l.toList_render]
    rfl

/-! ## Comments -/

theorem passed?_comment {s : List Char} (h : ∀ c ∈ s, 0x20 ≤ c.toNat) :
    Toml.passed? true (s ++ ['\n']) = some false := by
  induction s with
  | nil => rfl
  | cons c s ih =>
    obtain ⟨hc, hs⟩ := List.forall_mem_cons.mp h
    have hpass : Toml.pass? true c = some true := by
      have hend : c ≠ '\n' := fun e => absurd (e ▸ hc) (by decide)
      simp [Toml.pass?, hend, Toml.isCommentChar, hc]
    exact Option.bind_eq_some_iff.mpr ⟨true, hpass, ih hs⟩

theorem passed?_remark {r : List Char} (h : Comments.IsRemark r) (hr : ∀ c ∈ r, 0x20 ≤ c.toNat) :
    Toml.passed? false (r ++ ['\n']) = some false := by
  rcases h with rfl | h
  · rfl
  · obtain ⟨s, rfl⟩ := List.head?_eq_some_iff.mp h
    exact passed?_comment (List.forall_mem_cons.mp hr).2

/-- **Comments are passed over.** -/
theorem passed?_block (line : List Char) :
    Toml.passed? false (Comments.block line) = some false := by
  obtain ⟨rs, hblock, hrs⟩ := Comments.ofRemarks_block line
  rw [hblock]
  clear hblock
  induction rs with
  | nil => rfl
  | cons r rs ih =>
    obtain ⟨⟨hremark, hchars⟩, hrest⟩ := List.forall_mem_cons.mp hrs
    rw [List.flatMap_cons, Toml.passed?, List.foldlM_append]
    exact Option.bind_eq_some_iff.mpr ⟨false, passed?_remark hremark hchars, ih hrest⟩

/-- Rows with their comments. -/
def commented (rows : List Row) : List (List Char × Row) :=
  rows.map fun r => (Comments.block r.chars, r)

/-- **Each row gets its comment**, and an empty line follows the last one. -/
theorem explainChars_textOf {rows : List Row} (h : ∀ r ∈ rows, '\n' ∉ r.chars) :
    Comments.explainChars (textOf rows) = Toml.printed (commented rows) ++ ['\n'] := by
  unfold Comments.explainChars
  induction rows with
  | nil => rfl
  | cons r rows ih =>
    obtain ⟨hr, hrows⟩ := List.forall_mem_cons.mp h
    have hsplit : Text.split '\n' (textOf (r :: rows))
        = r.chars :: Text.split '\n' (textOf rows) := by
      rw [textOf_cons, List.append_assoc, List.singleton_append, Text.split_append_cons hr]
    rw [hsplit, List.flatMap_cons, ih hrows]
    simp [Comments.explainLine, commented, Toml.printed]

/-! ## Legal rows -/

theorem legal_textRow {name : String} (h : Toml.IsWord name.toList) (text : String) :
    (textRow name text).Legal := ⟨h, Toml.prints_text text⟩

theorem legal_numberRow {name : String} (h : Toml.IsWord name.toList) (n : Nat) :
    (numberRow name n).Legal := ⟨h, Toml.prints_number n⟩

theorem legal_truthRow {name : String} (h : Toml.IsWord name.toList) (b : Bool) :
    (truthRow name b).Legal := by
  cases b with
  | true => exact ⟨h, Toml.prints_true⟩
  | false => exact ⟨h, Toml.prints_false⟩

theorem ServerSettings.legal_rows (s : ServerSettings) : ∀ r ∈ s.rows, r.Legal := by
  simp only [rows, List.forall_mem_cons]
  exact ⟨show Toml.IsWord _ by decide, legal_textRow (by decide) _, legal_numberRow (by decide) _,
    legal_textRow (by decide) _, legal_textRow (by decide) _, nofun⟩

theorem LogSettings.legal_rows (l : LogSettings) : ∀ r ∈ l.rows, r.Legal := by
  have hsize : ∀ r ∈ (match l.maxSize with
      | some n => [numberRow "log_max_size" n.toNat]
      | none => []), r.Legal := by
    cases l.maxSize with
    | none => exact nofun
    | some n => exact List.forall_mem_singleton.mpr (legal_numberRow (by decide) _)
  simp only [rows, List.forall_mem_append, List.forall_mem_cons]
  exact ⟨⟨⟨show Toml.IsWord _ by decide, legal_truthRow (by decide) _, legal_textRow (by decide) _,
    legal_truthRow (by decide) _, legal_textRow (by decide) _, legal_textRow (by decide) _,
    legal_truthRow (by decide) _, nofun⟩, hsize⟩, legal_numberRow (by decide) _, nofun⟩

/-- **All rows of settings are legal.** -/
theorem Settings.legal_rows (s : Settings) : ∀ r ∈ s.rows, r.Legal := by
  unfold rows
  refine List.forall_mem_append.mpr ⟨s.server.legal_rows, ?_⟩
  cases s.log with
  | none => exact nofun
  | some l => exact List.forall_mem_cons.mpr ⟨trivial, l.legal_rows⟩

/-- A legal row is on one line. -/
theorem not_mem_chars {r : Row} (h : r.Legal) : '\n' ∉ r.chars ∧ '\r' ∉ r.chars := by
  have hword : ∀ w : List Char, Toml.IsWord w → '\n' ∉ w ∧ '\r' ∉ w := fun w hw =>
    ⟨Toml.not_mem_of_isWord hw (by decide), Toml.not_mem_of_isWord hw (by decide)⟩
  cases r with
  | blank => exact ⟨List.not_mem_nil, List.not_mem_nil⟩
  | header k =>
    obtain ⟨hn, hr⟩ := hword _ h
    simp [Row.chars, hn, hr]
  | entry k text v =>
    obtain ⟨hn, hr⟩ := hword _ h.1
    obtain ⟨hn', hr'⟩ := h.2.oneLine
    simp [Row.chars, hn, hr, hn', hr']

/-! ## Reading -/

theorem unifyLineEnds_of_not_mem {s : List Char} (h : '\r' ∉ s) : Toml.unifyLineEnds s = s := by
  induction s with
  | nil => rfl
  | cons c s ih =>
    rw [List.mem_cons, not_or] at h
    rw [Toml.unifyLineEnds, ih h.2]
    intro r hr
    exact absurd hr.symm h.1

theorem not_mem_printed {rows : List Row} (h : ∀ r ∈ rows, r.Legal) :
    '\r' ∉ Toml.printed (commented rows) := by
  induction rows with
  | nil => exact List.not_mem_nil
  | cons r rows ih =>
    obtain ⟨hr, hrows⟩ := List.forall_mem_cons.mp h
    have hblock := Toml.not_mem_of_passed? (passed?_block r.chars)
    have hchars := (not_mem_chars hr).2
    have hrest := ih hrows
    unfold commented at hrest ⊢
    simp [Toml.printed, hblock, hchars, hrest]

/-- A comment or a bracket stands at the start of the text, and no mark of the byte order. -/
theorem dropMark_printed {k : String} {rows more : List Row} (h : rows = .header k :: more)
    (r : List Char) :
    Toml.dropMark (Toml.printed (commented rows) ++ r) = Toml.printed (commented rows) ++ r := by
  subst h
  unfold commented
  rw [List.map_cons, Toml.printed]
  have hblock := passed?_block (Row.header k).chars
  cases hb : Comments.block (Row.header k).chars with
  | nil => rfl
  | cons c t =>
    rw [hb] at hblock
    rw [List.append_assoc]
    exact Toml.dropMark_of_passed? hblock _

theorem length_le_length_printed (rows : List (List Char × Row)) :
    rows.length ≤ (Toml.printed rows).length := by
  induction rows with
  | nil => exact Nat.le_refl 0
  | cons r rows ih =>
    obtain ⟨comment, row⟩ := r
    simp only [Toml.printed, List.length_append, List.length_cons]
    omega

/-- **A file with comments reads as the lines of its rows**, if all of them are read. -/
theorem ofText?_explain (s : Settings) :
    Toml.Line.ofText? (Comments.explain s.render) = Toml.allLines? (commented s.rows) := by
  have hlegal := s.legal_rows
  have htext : (Comments.explain s.render).toList
      = Toml.printed (commented s.rows) ++ ['\n'] := by
    rw [Comments.explain, String.toList_ofList, s.toList_render]
    exact explainChars_textOf fun r hr => (not_mem_chars (hlegal r hr)).1
  have hunify : Toml.unifyLineEnds (Toml.printed (commented s.rows) ++ ['\n'])
      = Toml.printed (commented s.rows) ++ ['\n'] := by
    refine unifyLineEnds_of_not_mem ?_
    have hprinted := not_mem_printed hlegal
    simp [hprinted]
  have hmark : Toml.dropMark (Toml.printed (commented s.rows) ++ ['\n'])
      = Toml.printed (commented s.rows) ++ ['\n'] := dropMark_printed rfl _
  unfold Toml.Line.ofText?
  simp only [htext, hunify, hmark]
  refine Toml.readLines_printed (fun r hr => ?_) ?_
  · obtain ⟨row, hrow, rfl⟩ := List.mem_map.mp hr
    exact ⟨passed?_block _, hlegal row hrow⟩
  · have hlength := length_le_length_printed (commented s.rows)
    have hrows : (commented s.rows).length = s.rows.length := List.length_map _
    rw [List.length_append, List.length_singleton]
    omega

end Routing.Config
