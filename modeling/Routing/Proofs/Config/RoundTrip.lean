import Routing.Proofs.Config.Rows

/-!
# Settings that are written and loaded again

A file that settings were written to reads as the lines of their rows. The lines make one section
for the server and one for the log, and settings are read from these. Two things get in the way,
both about the size in the settings of the log: no line is written for a size that is absent, and
where there is no line the standard size is read; and numbers are written with 64 bits, but read
with 64 bits of which one is the sign.

* `Settings.ofText?_explain`: what is read from the text of settings.
* `load_eq_self_iff`: which settings are loaded as they were written.
* `load_write`: what is loaded from a file that settings were written to.
-/

namespace Routing.Config

open Toml (Row Line Entries)

/-! ## Entries -/

/-- The lines of entries. -/
def entryLines (es : Entries) : List Line :=
  es.map fun e => .entry [e.1] e.2

theorem ofLines_entryLines (s : Toml.Section) (es : Entries) (ls : List Line) :
    s.ofLines (entryLines es ++ ls)
      = Toml.Section.ofLines { s with entries := s.entries ++ es } ls := by
  induction es generalizing s with
  | nil => rw [List.append_nil]; rfl
  | cons e es ih =>
    have hadd : Toml.addEntry e.2 [e.1] s.entries = some (s.entries ++ [e]) := rfl
    simp only [entryLines, List.map_cons, List.cons_append, Toml.Section.ofLines, hadd]
    rw [← entryLines, ih, List.append_assoc]
    rfl

/-- The entries of the settings of the server. -/
def ServerSettings.entries (s : ServerSettings) : Entries :=
  [("bind_address", .text s.bindAddress), ("bind_port", .integer s.bindPort.toNat),
    ("base_path", .text s.basePath), ("service_name", .text s.serviceName)]

/-- The entries of the settings of the log. -/
def LogSettings.entries (l : LogSettings) : Entries :=
  [("log_to_stdout", .boolean l.toStdout), ("stdout_log_level", .text (levelName l.stdoutLevel)),
    ("log_to_file", .boolean l.toFile), ("file_log_level", .text (levelName l.fileLevel)),
    ("log_file_path", .text l.filePath), ("log_file_append", .boolean l.append)]
    ++ (match l.maxSize with
      | some n => [("log_max_size", .integer n.toNat)]
      | none => [])
    ++ [("log_max_files", .integer l.maxFiles.toNat)]

theorem integer?_of_lt {n : Nat} (h : n < Nat.pow 2 63) :
    Toml.integer? false n = some (.integer n) := if_pos h

theorem integer?_of_not_lt {n : Nat} (h : ¬ n < Nat.pow 2 63) : Toml.integer? false n = none :=
  if_neg h

/-! ## Fields -/

theorem natural?_integer {bound n : Nat} (h : n < bound) :
    natural? bound (.integer n) = some n := by
  simp [natural?, h]

theorem levelOfName?_levelName (l : Log.Level) : levelOfName? (levelName l) = some l := by
  cases l <;> rfl

theorem port?_integer (p : UInt16) :
    (natural? UInt16.size (.integer p.toNat)).map Nat.toUInt16 = some p := by
  have hlt : p.toNat < UInt16.size := p.toNat_lt_size
  rw [natural?_integer hlt]
  simp

theorem count?_integer (n : UInt32) :
    (natural? UInt32.size (.integer n.toNat)).map Nat.toUInt32 = some n := by
  have hlt : n.toNat < UInt32.size := n.toNat_lt_size
  rw [natural?_integer hlt]
  simp

/-- A size that is absent is the standard one. -/
theorem size?_field (size : Option UInt64) :
    fieldOr ({} : LogSettings).maxSize
        (fun v => (natural? UInt64.size v).map fun n => some n.toUInt64)
        (size.map fun n => .integer n.toNat)
      = some (size.or ({} : LogSettings).maxSize) := by
  cases size with
  | none => rfl
  | some n =>
    have hlt : n.toNat < UInt64.size := n.toNat_lt_size
    rw [Option.map_some, fieldOr, natural?_integer hlt]
    simp

theorem serverSettings?_of_fields {v port : Toml.Value} {s : ServerSettings}
    (hfields : v.fields? serverNames = some [some (.text s.bindAddress), some port,
      some (.text s.basePath), some (.text s.serviceName)])
    (hport : (natural? UInt16.size port).map Nat.toUInt16 = some s.bindPort) :
    serverSettings? v = some s := by
  unfold serverSettings?
  rw [hfields]
  simp only [fieldOr, text?]
  rw [hport]
  rfl

theorem logSettings?_of_fields {v files : Toml.Value} {size : Option Toml.Value} {l : LogSettings}
    {maxSize : Option UInt64}
    (hfields : v.fields? logNames = some [some (.boolean l.toStdout),
      some (.text (levelName l.stdoutLevel)), some (.boolean l.toFile),
      some (.text (levelName l.fileLevel)), some (.text l.filePath), some (.boolean l.append),
      size, some files])
    (hsize : fieldOr ({} : LogSettings).maxSize
      (fun v => (natural? UInt64.size v).map fun n => some n.toUInt64) size = some maxSize)
    (hfiles : (natural? UInt32.size files).map Nat.toUInt32 = some l.maxFiles)
    (sole : Option String) : logSettings? sole v = some { l with maxSize } := by
  unfold logSettings?
  rw [hfields]
  simp only [hsize]
  simp only [fieldOr, text?, boolean?, level?, levelOfName?_levelName]
  rw [hfiles]
  rfl

/-- The settings of the server are read from their entries. -/
theorem serverSettings?_entries (s : ServerSettings) :
    serverSettings? (.table .header s.entries) = some s :=
  serverSettings?_of_fields rfl (port?_integer s.bindPort)

/-- The settings of the log are read from their entries, with the standard size if there is none
among them. -/
theorem logSettings?_entries (l : LogSettings) (sole : Option String) :
    logSettings? sole (.table .header l.entries)
      = some { l with maxSize := l.maxSize.or ({} : LogSettings).maxSize } := by
  refine logSettings?_of_fields ?_ (size?_field l.maxSize) (count?_integer l.maxFiles) sole
  unfold LogSettings.entries
  cases l.maxSize <;> rfl

/-! ## Lines -/

theorem allLines?_append (xs ys : List (List Char × Row)) :
    Toml.allLines? (xs ++ ys)
      = (Toml.allLines? xs).bind fun ls => (Toml.allLines? ys).map (ls ++ ·) := by
  induction xs with
  | nil =>
    rw [List.nil_append, Toml.allLines?, Option.bind_some]
    cases Toml.allLines? ys <;> rfl
  | cons x xs ih =>
    obtain ⟨comment, row⟩ := x
    rw [List.cons_append, Toml.allLines?, Toml.allLines?, ih]
    cases row.lines? with
    | none => rfl
    | some ls =>
      cases Toml.allLines? xs with
      | none => rfl
      | some ls' => cases Toml.allLines? ys <;> simp

theorem lines?_numberRow {name : String} {n : Nat} (h : n < Nat.pow 2 63) :
    (numberRow name n).lines? = some [.entry [name] (.integer n)] := by
  rw [numberRow, integer?_of_lt h]
  rfl

theorem ServerSettings.allLines?_rows (s : ServerSettings) :
    Toml.allLines? (commented s.rows)
      = some (.header ["server"] false :: entryLines s.entries) := by
  have hport : s.bindPort.toNat < Nat.pow 2 63 :=
    Nat.lt_trans s.bindPort.toNat_lt_size (by decide)
  simp only [rows, commented, List.map_cons, List.map_nil, Toml.allLines?, lines?_numberRow hport]
  rfl

/-- Whether the size in the settings of the log can be read back: with its sign it has 64 bits. -/
def LogSettings.SizeFits (l : LogSettings) : Prop :=
  ∀ n ∈ l.maxSize, n.toNat < Nat.pow 2 63

instance (l : LogSettings) : Decidable l.SizeFits :=
  inferInstanceAs (Decidable (∀ n ∈ l.maxSize, n.toNat < Nat.pow 2 63))

theorem LogSettings.allLines?_rows {l : LogSettings} (h : l.SizeFits) :
    Toml.allLines? (commented l.rows)
      = some (.header ["logging"] false :: entryLines l.entries) := by
  have hfiles : l.maxFiles.toNat < Nat.pow 2 63 :=
    Nat.lt_trans l.maxFiles.toNat_lt_size (by decide)
  unfold rows entries
  cases hsize : l.maxSize with
  | none =>
    simp only [commented, List.map_cons, List.map_nil, List.cons_append, List.nil_append,
      Toml.allLines?, lines?_numberRow hfiles]
    rfl
  | some n =>
    simp only [commented, List.map_cons, List.map_nil, List.cons_append, List.nil_append,
      Toml.allLines?, lines?_numberRow hfiles, lines?_numberRow (h n hsize)]
    rfl

theorem LogSettings.allLines?_rows_eq_none {l : LogSettings} (h : ¬ l.SizeFits) :
    Toml.allLines? (commented l.rows) = none := by
  obtain ⟨n, hn⟩ := Classical.not_forall.mp h
  obtain ⟨hsize, hle⟩ := Classical.not_imp.mp hn
  have hrow : (numberRow "log_max_size" n.toNat).lines? = none := by
    rw [numberRow, integer?_of_not_lt hle]
    rfl
  unfold rows
  rw [Option.mem_def.mp hsize]
  simp only [commented, List.map_append, List.map_cons, List.map_nil, allLines?_append,
    Toml.allLines?, hrow]
  simp

/-- The lines of all settings: an empty line stands in front of those of the log. -/
theorem allLines?_rows_log (s : ServerSettings) (l : LogSettings) :
    Toml.allLines? (commented (Settings.rows ⟨s, some l⟩))
      = (Toml.allLines? (commented l.rows)).map
          (.header ["server"] false :: entryLines s.entries ++ ·) := by
  have hserver := s.allLines?_rows
  unfold commented at hserver ⊢
  rw [Settings.rows, List.map_append, List.map_cons, allLines?_append, hserver, Option.bind_some,
    Toml.allLines?, Row.lines?, Option.bind_some, Option.map_map]
  rfl

/-! ## Sections -/

theorem ofLines_header (name : String) (s : Toml.Section) (es : Entries) (ls : List Line) :
    s.ofLines (.header [name] false :: (entryLines es ++ ls))
      = (Toml.Section.ofLines ⟨[name], false, es⟩ ls).map (s.kept ++ ·) := by
  rw [Toml.Section.ofLines, ofLines_entryLines, List.nil_append]

theorem ofLines_server (es : Entries) :
    Toml.Section.ofLines ⟨[], false, []⟩ (.header ["server"] false :: entryLines es)
      = some [⟨["server"], false, es⟩] := by
  rw [← List.append_nil (entryLines es), ofLines_header]
  rfl

theorem ofLines_logging (es fs : Entries) :
    Toml.Section.ofLines ⟨[], false, []⟩ (.header ["server"] false :: entryLines es
        ++ .header ["logging"] false :: entryLines fs)
      = some [⟨["server"], false, es⟩, ⟨["logging"], false, fs⟩] := by
  rw [List.cons_append, ofLines_header, ← List.append_nil (entryLines fs), ofLines_header]
  rfl

theorem table?_server (es : Entries) :
    Toml.Document.table? ⟨[⟨["server"], false, es⟩]⟩
      = some [("server", .table .header es)] := by
  simp [Toml.Document.table?, Toml.Section.addUp, Toml.Section.weight, Toml.Section.below?,
    Toml.Section.isBelow]

theorem table?_logging (es fs : Entries) :
    Toml.Document.table? ⟨[⟨["server"], false, es⟩, ⟨["logging"], false, fs⟩]⟩
      = some [("server", .table .header es), ("logging", .table .header fs)] := by
  simp [Toml.Document.table?, Toml.Section.addUp, Toml.Section.weight, Toml.Section.below?,
    Toml.Section.isBelow]

/-! ## The settings in a text -/

/-- The settings of the log that are read from their own lines, if all of these are read. Without a
line for it, the size is the standard one. -/
def LogSettings.reread? (l : LogSettings) : Option LogSettings :=
  if l.SizeFits then some { l with maxSize := l.maxSize.or ({} : LogSettings).maxSize } else none

/-- The settings that are read from their own lines. -/
def Settings.reread? (s : Settings) : Option Settings :=
  match s.log with
  | none => some s
  | some l => l.reread?.map fun l => { s with log := some l }

/-- Settings are read from their sections. -/
theorem settings?_server {sole : Option String} {v : Toml.Value} {s : ServerSettings}
    (h : serverSettings? v = some s) : settings? sole [("server", v)] = some ⟨s, none⟩ := by
  have hsingles : Toml.singles? [("server", v)] ["server", "logging"] = some [some v, none] := rfl
  unfold settings?
  rw [hsingles]
  simp only [fieldOr, h]
  rfl

theorem settings?_logging {sole : Option String} {v w : Toml.Value} {s : ServerSettings}
    {l : LogSettings} (hv : serverSettings? v = some s) (hw : logSettings? sole w = some l) :
    settings? sole [("server", v), ("logging", w)] = some ⟨s, some l⟩ := by
  have hsingles : Toml.singles? [("server", v), ("logging", w)] ["server", "logging"]
      = some [some v, some w] := rfl
  unfold settings?
  rw [hsingles]
  simp only [fieldOr, hv, hw]
  rfl

theorem ofText?_of_lines {text : String} {lines : List Line} {sections : List Toml.Section}
    (hlines : Toml.Line.ofText? text = some lines)
    (hsections : Toml.Section.ofLines ⟨[], false, []⟩ lines = some sections) :
    Settings.ofText? text
      = (Toml.Document.table? ⟨sections⟩).bind
          (settings? (Toml.Document.soleName? ⟨sections⟩)) := by
  unfold Settings.ofText? Toml.Document.ofText?
  rw [hlines]
  simp only [hsections, Option.map_some]

theorem ofText?_eq_none {text : String} (h : Toml.Line.ofText? text = none) :
    Settings.ofText? text = none := by
  unfold Settings.ofText? Toml.Document.ofText?
  rw [h]

/-- **The text of settings reads as the settings**, up to a size of the log that is absent or not
read. -/
theorem Settings.ofText?_explain (s : Settings) :
    Settings.ofText? (Comments.explain s.render) = s.reread? := by
  obtain ⟨server, log⟩ := s
  have hlines := Config.ofText?_explain ⟨server, log⟩
  cases log with
  | none =>
    have hrows : Settings.rows ⟨server, none⟩ = server.rows := List.append_nil _
    rw [hrows, server.allLines?_rows] at hlines
    rw [ofText?_of_lines hlines (ofLines_server _), table?_server, Option.bind_some]
    exact settings?_server (serverSettings?_entries server)
  | some l =>
    rw [allLines?_rows_log] at hlines
    unfold reread? LogSettings.reread?
    by_cases h : l.SizeFits
    · rw [LogSettings.allLines?_rows h, Option.map_some] at hlines
      rw [ofText?_of_lines hlines (ofLines_logging _ _), table?_logging, Option.bind_some]
      simp only [if_pos h, Option.map_some]
      exact settings?_logging (serverSettings?_entries server) (logSettings?_entries l _)
    · rw [LogSettings.allLines?_rows_eq_none h, Option.map_none] at hlines
      rw [ofText?_eq_none hlines]
      simp only [if_neg h, Option.map_none]

/-! ## Files -/

/-- What is loaded from a file that settings were written to. -/
theorem load_eq_reread? {s : Settings} {p : Option String} {t u : FileTree} {path : String}
    (h : Configuration.write ⟨p, some s⟩ t path = .ok u) :
    Configuration.load u path =
      match s.reread? with
      | some s' => .ok ⟨some path, some s'⟩
      | none => .error (.malformed path) := by
  have hwrite : t.write path (Text.Utf8.encode (Comments.explain s.render)) = .ok u := h
  unfold Configuration.load
  rw [FileTree.holds_of_read (FileTree.read_write hwrite), FileTree.readText_write hwrite]
  have hread := s.ofText?_explain
  cases hreread : s.reread? with
  | none => simp [hread, hreread]
  | some s' => simp [hread, hreread]

/-- The settings of the log come back if there is a size and it fits. -/
theorem LogSettings.reread?_eq_self_iff (l : LogSettings) :
    l.reread? = some l ↔ ∃ n ∈ l.maxSize, n.toNat < Nat.pow 2 63 := by
  unfold reread? SizeFits
  obtain ⟨toStdout, stdoutLevel, toFile, fileLevel, filePath, append, maxSize, maxFiles⟩ := l
  cases maxSize with
  | none => simp
  | some n => simp

/-- Settings come back if those of the log do. -/
theorem Settings.reread?_eq_self_iff (s : Settings) :
    s.reread? = some s ↔ ∀ l ∈ s.log, ∃ n ∈ l.maxSize, n.toNat < Nat.pow 2 63 := by
  obtain ⟨server, log⟩ := s
  unfold reread?
  cases log with
  | none => simp
  | some l => simpa using l.reread?_eq_self_iff

/-- Which settings are loaded as they were written. -/
theorem load_eq_self_iff {s : Settings} {p : Option String} {t u : FileTree} {path : String}
    (h : Configuration.write ⟨p, some s⟩ t path = .ok u) :
    Configuration.load u path = .ok ⟨some path, some s⟩ ↔
      ∀ l ∈ s.log, ∃ n ∈ l.maxSize, n.toNat < Nat.pow 2 63 := by
  rw [load_eq_reread? h, ← s.reread?_eq_self_iff]
  cases s.reread? <;> simp

/-- **What is loaded from a file that settings were written to**: the settings, if they have no log,
or one with a size that has 64 bits with its sign. Without a size the log gets the standard one, and
a size that does not fit makes the file malformed. -/
theorem load_write {s : Settings} {p : Option String} {t u : FileTree} {path : String}
    (h : Configuration.write ⟨p, some s⟩ t path = .ok u) :
    (Configuration.load u path =
      match s.reread? with
      | some s' => .ok ⟨some path, some s'⟩
      | none => .error (.malformed path)) ∧
    (Configuration.load u path = .ok ⟨some path, some s⟩ ↔
      ∀ l ∈ s.log, ∃ n ∈ l.maxSize, n.toNat < Nat.pow 2 63) :=
  ⟨load_eq_reread? h, load_eq_self_iff h⟩

theorem write_empty (content : Bytes) :
    FileTree.empty.write "out.toml" content
      = .ok (FileTree.empty.set ["out.toml"] (.file content)) := rfl

/-- Settings with texts that look like other lines of the file. -/
def lookalikes : Settings where
  server := { bindAddress := "[server]\nbind_port = 1", basePath := "= \"#\"" }
  log := some { filePath := "[logging]\r\n\t\\é", stdoutLevel := .trace, maxSize := some 0 }

/-- Texts that look like other lines of the file come back. -/
theorem load_write_lookalikes :
    ∃ u, Configuration.write ⟨none, some lookalikes⟩ FileTree.empty "out.toml" = .ok u ∧
      Configuration.load u "out.toml" = .ok ⟨some "out.toml", some lookalikes⟩ := by
  have hwrite := write_empty (Text.Utf8.encode (Comments.explain lookalikes.render))
  refine ⟨_, hwrite, (load_write (p := none) hwrite).2.mpr fun l hl => ?_⟩
  rw [← Option.some.inj hl]
  exact ⟨0, rfl, by decide⟩

/-- A log without a size is not loaded as it was written. -/
theorem load_write_unlimited :
    ∃ u, Configuration.write ⟨none, some ⟨{}, some { maxSize := none }⟩⟩ FileTree.empty "out.toml"
        = .ok u ∧
      Configuration.load u "out.toml"
        ≠ .ok ⟨some "out.toml", some ⟨{}, some { maxSize := none }⟩⟩ := by
  have hwrite := write_empty (Text.Utf8.encode (Comments.explain
    (Settings.render ⟨{}, some { maxSize := none }⟩)))
  refine ⟨_, hwrite, fun hload => ?_⟩
  obtain ⟨n, hn, -⟩ := (load_eq_self_iff (p := none) hwrite).mp hload _ rfl
  exact nomatch hn

end Routing.Config
