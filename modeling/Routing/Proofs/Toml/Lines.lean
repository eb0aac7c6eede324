import Routing.Proofs.Toml.Scalar
import Routing.Toml.Reader

/-!
# What printed lines read as

A printed file is a list of rows, each a header, an entry or an empty line, with comments in front.
The text of a value may be one that is not read back, and then neither is the file. Every row takes
one line, so the reader gets through the file row by row.

* `Prints`: what is printed for a value, and what it reads as.
* `readLine_header`, `readLine_entry`: one row is one line.
* `readLines_printed`: a printed file reads as the lines of its rows.
-/

namespace Routing.Toml

/-! ## Values -/

/-- What is printed for a value: a text on one line that does not start with a blank, and at the end
of a line reads as the value, or is not read at all. -/
structure Prints (text : List Char) (v : Option Value) : Prop where
  starts : ∃ c t, text = c :: t ∧ Quoted.isBlank c = false
  oneLine : '\n' ∉ text ∧ '\r' ∉ text
  reads : ∀ fuel r, readValue (fuel + 1) (text ++ '\n' :: r) = v.map fun v => (v, '\n' :: r)

/-- Characters beyond ASCII are written as they are. -/
theorem encodeChar_of_not_ascii {c : Char} (hc : ¬ c.toNat < 128) :
    Quoted.encodeChar c = [c] := by
  have hne : ∀ d : Char, d.toNat < 128 → c ≠ d := fun d hd e => hc (e ▸ hd)
  unfold Quoted.encodeChar
  rw [if_neg (hne _ (by decide)), if_neg (hne _ (by decide)), if_neg (hne _ (by decide)),
    if_neg (hne _ (by decide)), if_neg (hne _ (by decide)), if_neg (hne _ (by decide)),
    if_neg (hne _ (by decide)), if_neg (by simp; omega)]

/-- What is checked of the ASCII characters one by one holds of all of them. -/
theorem forall_ascii {p : Char → Bool}
    (h : (List.range 128).all (fun n => p (Char.ofNat n)) = true) {c : Char} (hc : c.toNat < 128) :
    p c = true := by
  have hp := List.all_eq_true.mp h c.toNat (List.mem_range.mpr hc)
  rwa [Char.ofNat_toNat] at hp

/-- No control character is written. -/
theorem le_toNat_of_mem_encodeChar {c x : Char} (h : x ∈ Quoted.encodeChar c) :
    0x20 ≤ x.toNat := by
  by_cases hc : c.toNat < 128
  · have hchar := forall_ascii
      (p := fun c => (Quoted.encodeChar c).all fun y => decide (0x20 ≤ y.toNat))
      (by decide +kernel) hc
    exact of_decide_eq_true (List.all_eq_true.mp hchar x h)
  · rw [encodeChar_of_not_ascii hc, List.mem_singleton] at h
    rw [h]
    omega

theorem not_mem_encode (s : List Char) {x : Char} (hx : x.toNat < 0x20) :
    x ∉ Quoted.encode s := by
  intro h
  rcases List.mem_cons.mp h with rfl | h
  · exact absurd hx (by decide)
  · rcases List.mem_append.mp h with h | h
    · obtain ⟨c, -, hc⟩ := List.mem_flatMap.mp h
      exact absurd (le_toNat_of_mem_encodeChar hc) (by omega)
    · rw [List.mem_singleton.mp h] at hx
      exact absurd hx (by decide)

theorem prints_text (s : String) : Prints (Quoted.encode s.toList) (some (.text s)) where
  starts := ⟨'"', _, rfl, rfl⟩
  oneLine := ⟨not_mem_encode _ (by decide), not_mem_encode _ (by decide)⟩
  reads fuel r := by
    have hread := Quoted.read_encode s.toList ('\n' :: r) (by simp)
    have hquote : Quoted.encode s.toList ++ '\n' :: r
        = '"' :: (Quoted.encode s.toList ++ '\n' :: r).tail := rfl
    rw [hquote, readValue, hread]
    simp only [Option.map_some, String.ofList_toList]

/-- A value that starts with a character of a word has no quotes and no brackets. -/
theorem readValue_of_isWordChar {c : Char} (hc : isWordChar c = true) (fuel : Nat)
    (s : List Char) : readValue (fuel + 1) (c :: s) = readScalar (c :: s) := by
  have hne : ∀ d, isWordChar d = false → ∀ r, c :: s ≠ d :: r := fun d hd r e => by
    rw [(List.cons.inj e).1, hd] at hc
    exact absurd hc (by simp)
  rw [readValue]
  · exact hne _ (by decide)
  · exact hne _ (by decide)
  · exact hne _ (by decide)
  · exact hne _ (by decide)

theorem prints_number (n : Nat) : Prints (Nat.toDigits 10 n) (integer? false n) := by
  have hdigit : ∀ c ∈ Nat.toDigits 10 n, c.isDigit = true := fun c hc =>
    Nat.isDigit_of_mem_toDigits (by decide) (by decide) hc
  have hread := readScalar_toDigits n
  obtain ⟨c, t, ht⟩ := List.exists_cons_of_ne_nil (Nat.toDigits_ne_nil (b := 10) (n := n))
  rw [ht] at hdigit hread ⊢
  have hc : c.isDigit = true := hdigit c List.mem_cons_self
  refine ⟨⟨c, t, rfl, ?_⟩,
    ⟨not_mem_of_isDigit hdigit (by decide), not_mem_of_isDigit hdigit (by decide)⟩, ?_⟩
  · cases hblank : Quoted.isBlank c with
    | false => rfl
    | true =>
      simp only [Quoted.isBlank, Bool.or_eq_true, decide_eq_true_eq] at hblank
      rcases hblank with rfl | rfl <;> exact absurd hc (by decide)
  · intro fuel r
    rw [← hread r]
    exact readValue_of_isWordChar (by simp [isWordChar, Char.isAlphanum, hc]) fuel _

theorem prints_true : Prints "true".toList (some (.boolean true)) where
  starts := ⟨'t', _, rfl, rfl⟩
  oneLine := by decide
  reads _ r := readScalar_true r

theorem prints_false : Prints "false".toList (some (.boolean false)) where
  starts := ⟨'f', _, rfl, rfl⟩
  oneLine := by decide
  reads _ r := readScalar_false r

/-! ## Rows -/

/-- A row of a printed file. -/
inductive Row where
  /-- An empty line. -/
  | blank
  /-- A header. -/
  | header (k : String)
  /-- A key and the text for its value, with the value that it reads as. -/
  | entry (k : String) (text : List Char) (v : Option Value)

namespace Row

/-- The text of a row, without the line end. -/
def chars : Row → List Char
  | blank => []
  | header k => '[' :: k.toList ++ [']']
  | entry k text _ => k.toList ++ " = ".toList ++ text

/-- The lines that a row reads as, if it is read. -/
def lines? : Row → Option (List Line)
  | blank => some []
  | header k => some [.header [k] false]
  | entry k _ v => v.map fun v => [.entry [k] v]

/-- Keys are words, and values are printed as they are to be. -/
def Legal : Row → Prop
  | blank => True
  | header k => IsWord k.toList
  | entry k text v => IsWord k.toList ∧ Prints text v

end Row

/-- A single key in front of a character that ends it. -/
theorem readKey_append {w : List Char} (h : IsWord w) {c : Char} (hc : isWordChar c = false)
    (r : List Char) : readKey (w ++ c :: r) = some (String.ofList w, c :: r) := by
  have htake := takeWord_append h hc r
  obtain ⟨x, w, rfl⟩ := List.exists_cons_of_ne_nil h.1
  have hx : isWordChar x = true := h.2 x List.mem_cons_self
  unfold readKey
  split
  · rename_i hq
    rw [(List.cons.inj hq).1] at hx
    exact absurd hx (by decide)
  · rename_i hq
    rw [(List.cons.inj hq).1] at hx
    exact absurd hx (by decide)
  · simp only [htake]

theorem isWordChar_of_isBlank {c : Char} (h : Quoted.isBlank c = true) :
    isWordChar c = false := by
  simp only [Quoted.isBlank, Bool.or_eq_true, decide_eq_true_eq] at h
  rcases h with rfl | rfl <;> decide

theorem skipBlanks_append {b : List Char} (h : ∀ c ∈ b, Quoted.isBlank c = true) {c : Char}
    (hc : Quoted.isBlank c = false) (r : List Char) : skipBlanks (b ++ c :: r) = c :: r := by
  unfold skipBlanks
  rw [List.dropWhile_append_of_pos h, List.dropWhile_cons_of_neg (by simp [hc])]

/-- A path of a single key, with blanks after it, in front of a character that ends it. -/
theorem readPath_append {w b : List Char} (h : IsWord w)
    (hb : ∀ c ∈ b, Quoted.isBlank c = true) {c : Char} (hc : isWordChar c = false)
    (hblank : Quoted.isBlank c = false) (hpoint : c ≠ '.') (fuel : Nat) (r : List Char) :
    readPath (fuel + 1) (w ++ (b ++ c :: r)) = some ([String.ofList w], c :: r) := by
  have hkey : readKey (w ++ (b ++ c :: r)) = some (String.ofList w, b ++ c :: r) := by
    cases b with
    | nil => exact readKey_append h hc r
    | cons x b => exact readKey_append h (isWordChar_of_isBlank (hb x List.mem_cons_self)) _
  rw [readPath, hkey]
  simp only [skipBlanks_append hb hblank]
  split
  · rename_i t ht
    exact absurd (List.cons.inj ht).1 hpoint
  · rfl

theorem exists_cons_of_isWord {w : List Char} (h : IsWord w) :
    ∃ c t, w = c :: t ∧ Quoted.isBlank c = false ∧ c ≠ '[' ∧ c ≠ '#' ∧ c ≠ '\n' := by
  obtain ⟨c, t, rfl⟩ := List.exists_cons_of_ne_nil h.1
  have hc : isWordChar c = true := h.2 c List.mem_cons_self
  have hne : ∀ d, isWordChar d = false → c ≠ d := fun d hd e => by
    rw [e, hd] at hc
    exact absurd hc (by simp)
  refine ⟨c, t, rfl, ?_, hne _ (by decide), hne _ (by decide), hne _ (by decide)⟩
  cases hblank : Quoted.isBlank c with
  | false => rfl
  | true => rw [isWordChar_of_isBlank hblank] at hc; exact absurd hc (by simp)

/-- **A header is one line.** -/
theorem readLine_header {k : String} (hk : IsWord k.toList) (fuel : Nat) (r : List Char) :
    readLine (fuel + 1) ((Row.header k).chars ++ '\n' :: r) = some (.header [k] false, r) := by
  have hpath := readPath_append (b := []) hk (by simp) (c := ']') (by decide) (by decide)
    (by decide) fuel ('\n' :: r)
  have hchars : (Row.header k).chars ++ '\n' :: r = '[' :: (k.toList ++ ']' :: '\n' :: r) := by
    simp [Row.chars]
  obtain ⟨c, t, hct, hblank, hbracket, -, -⟩ := exists_cons_of_isWord hk
  have hskip : skipBlanks (k.toList ++ ']' :: '\n' :: r) = k.toList ++ ']' :: '\n' :: r := by
    rw [hct]
    exact skipBlanks_append (b := []) (by simp) hblank _
  have hheader : readHeader (fuel + 1) false (k.toList ++ ']' :: '\n' :: r)
      = some (.header [k] false, r) := by
    rw [List.nil_append] at hpath
    unfold readHeader
    rw [hskip, hpath, String.ofList_toList]
    rfl
  rw [hchars, ← hheader]
  unfold readLine
  split
  · rename_i hq
    rw [hct] at hq
    exact absurd (List.cons.inj (List.cons.inj hq).2).1 hbracket
  · rename_i hq
    rw [(List.cons.inj hq).2]
  · rename_i hq
    exact absurd rfl (hq _)

/-- A line that does not start with a bracket is an entry. -/
theorem readLine_of_ne {c : Char} (hc : c ≠ '[') (fuel : Nat) (s : List Char) :
    readLine fuel (c :: s) = readEntry fuel (c :: s) := by
  unfold readLine
  split
  · rename_i hq
    exact absurd (List.cons.inj hq).1 hc
  · rename_i hq
    exact absurd (List.cons.inj hq).1 hc
  · rfl

/-- **An entry is one line.** -/
theorem readLine_entry {k : String} (hk : IsWord k.toList) {text : List Char} {v : Option Value}
    (hv : Prints text v) (fuel : Nat) (r : List Char) :
    readLine (fuel + 1) ((Row.entry k text v).chars ++ '\n' :: r)
      = v.map fun v => (.entry [k] v, r) := by
  obtain ⟨⟨d, u, rfl, hd⟩, -, hreads⟩ := hv
  have hpath := readPath_append (b := [' ']) hk (by simp [Quoted.isBlank]) (c := '=')
    (by decide) (by decide) (by decide) fuel (' ' :: ((d :: u) ++ '\n' :: r))
  have hchars : (Row.entry k (d :: u) v).chars ++ '\n' :: r
      = k.toList ++ ([' '] ++ '=' :: ' ' :: ((d :: u) ++ '\n' :: r)) := by
    simp [Row.chars]
  have hassigned : readAssigned (fuel + 1) ((Row.entry k (d :: u) v).chars ++ '\n' :: r)
      = some ([k], (d :: u) ++ '\n' :: r) := by
    have hskip : skipBlanks (' ' :: ((d :: u) ++ '\n' :: r)) = (d :: u) ++ '\n' :: r :=
      skipBlanks_append (b := [' ']) (by simp [Quoted.isBlank]) hd _
    rw [hchars, readAssigned, hpath, String.ofList_toList]
    simp only [hskip]
  obtain ⟨c, t, hct, -, hbracket, -, -⟩ := exists_cons_of_isWord hk
  have hline : readLine (fuel + 1) ((Row.entry k (d :: u) v).chars ++ '\n' :: r)
      = readEntry (fuel + 1) ((Row.entry k (d :: u) v).chars ++ '\n' :: r) := by
    rw [hchars, hct]
    exact readLine_of_ne hbracket _ _
  rw [hline, readEntry, hassigned]
  simp only [hreads]
  cases v with
  | none => rfl
  | some v => rfl

/-! ## Files -/

/-- Whether the reader is in a comment after a character that it passes over. -/
def pass? (inComment : Bool) (c : Char) : Option Bool :=
  if inComment then
    if c = '\n' then some false else if isCommentChar c then some true else none
  else if Quoted.isBlank c || c = '\n' then some false
  else if c = '#' then some true
  else none

/-- Whether the reader is in a comment after a text that it passes over. -/
def passed? (inComment : Bool) (s : List Char) : Option Bool :=
  s.foldlM pass? inComment

theorem skipEmpty_cons {inComment after : Bool} {c : Char} (h : pass? inComment c = some after)
    (r : List Char) : skipEmpty inComment (c :: r) = skipEmpty after r := by
  rw [skipEmpty]
  unfold pass? at h
  split at h
  · rename_i hc
    rw [if_pos hc]
    split at h
    · rename_i hend
      rw [if_pos hend, Option.some.inj h]
    · rename_i hend
      rw [if_neg hend]
      split at h
      · rename_i hchar
        rw [if_pos hchar, Option.some.inj h]
      · exact nomatch h
  · rename_i hc
    rw [if_neg hc]
    split at h
    · rename_i hblank
      rw [if_pos hblank, Option.some.inj h]
    · rename_i hblank
      rw [if_neg hblank]
      split at h
      · rename_i hmark
        rw [if_pos hmark, Option.some.inj h]
      · exact nomatch h

/-- What is passed over does not matter. -/
theorem skipEmpty_append {inComment after : Bool} {s : List Char}
    (h : passed? inComment s = some after) (r : List Char) :
    skipEmpty inComment (s ++ r) = skipEmpty after r := by
  induction s generalizing inComment with
  | nil => rw [List.nil_append, Option.some.inj h]
  | cons c s ih =>
    obtain ⟨next, hnext, hrest⟩ := Option.bind_eq_some_iff.mp h
    rw [List.cons_append, skipEmpty_cons hnext, ih hrest]

/-- Carriage returns are not passed over. -/
theorem not_mem_of_passed? {inComment after : Bool} {s : List Char}
    (h : passed? inComment s = some after) : '\r' ∉ s := by
  induction s generalizing inComment with
  | nil => exact List.not_mem_nil
  | cons c s ih =>
    obtain ⟨next, hnext, hrest⟩ := Option.bind_eq_some_iff.mp h
    rw [List.mem_cons, not_or]
    refine ⟨?_, ih hrest⟩
    rintro rfl
    cases inComment <;> exact nomatch hnext

/-- The mark of the byte order is not passed over. -/
theorem dropMark_of_passed? {after : Bool} {c : Char} {s : List Char}
    (h : passed? false (c :: s) = some after) (r : List Char) :
    dropMark (c :: s ++ r) = c :: s ++ r := by
  obtain ⟨next, hnext, -⟩ := Option.bind_eq_some_iff.mp h
  unfold dropMark
  split
  · rename_i hmark
    rw [(List.cons.inj hmark).1] at hnext
    exact nomatch hnext
  · rfl

/-- The rows of a file, each after its comment. -/
def printed : List (List Char × Row) → List Char
  | [] => []
  | (comment, row) :: rows => comment ++ (row.chars ++ '\n' :: printed rows)

/-- The lines that rows read as, if all of them are read. -/
def allLines? : List (List Char × Row) → Option (List Line)
  | [] => some []
  | (_, row) :: rows => row.lines?.bind fun ls => (allLines? rows).map (ls ++ ·)

theorem readLines_append {comment : List Char} (h : passed? false comment = some false)
    (fuel : Nat) (s : List Char) : readLines fuel (comment ++ s) = readLines fuel s := by
  cases fuel with
  | zero => rfl
  | succ fuel => rw [readLines, readLines, skipEmpty_append h]

/-- The reader goes on with the line at the front, if there is one. -/
theorem readLines_of_readLine {s : List Char}
    (hs : ∃ c t, s = c :: t ∧ Quoted.isBlank c = false ∧ c ≠ '#' ∧ c ≠ '\n') {fuel : Nat}
    {l : Option Line} {r : List Char} (h : readLine fuel s = l.map fun l => (l, r)) :
    readLines (fuel + 1) s = l.bind fun l => (readLines fuel r).map (l :: ·) := by
  obtain ⟨c, t, rfl, hblank, hmark, hend⟩ := hs
  have hskip : skipEmpty false (c :: t) = some (c :: t) := by
    simp [skipEmpty, hblank, hmark, hend]
  rw [readLines, hskip]
  simp only [h]
  cases l <;> rfl

theorem readLines_header {k : String} (hk : IsWord k.toList) (fuel : Nat) (r : List Char) :
    readLines (fuel + 2) ((Row.header k).chars ++ '\n' :: r)
      = (readLines (fuel + 1) r).map (Line.header [k] false :: ·) :=
  readLines_of_readLine ⟨'[', _, rfl, by decide⟩ (l := some _) (readLine_header hk fuel r)

theorem readLines_entry {k : String} (hk : IsWord k.toList) {text : List Char} {v : Option Value}
    (hv : Prints text v) (fuel : Nat) (r : List Char) :
    readLines (fuel + 2) ((Row.entry k text v).chars ++ '\n' :: r)
      = v.bind fun v => (readLines (fuel + 1) r).map (Line.entry [k] v :: ·) := by
  have hstarts : ∃ c t, (Row.entry k text v).chars ++ '\n' :: r = c :: t ∧
      Quoted.isBlank c = false ∧ c ≠ '#' ∧ c ≠ '\n' := by
    obtain ⟨c, t, hct, hblank, -, hmark, hend⟩ := exists_cons_of_isWord hk
    refine ⟨c, t ++ " = ".toList ++ text ++ '\n' :: r, ?_, hblank, hmark, hend⟩
    rw [Row.chars, hct]
    rfl
  have hline : readLine (fuel + 1) ((Row.entry k text v).chars ++ '\n' :: r)
      = (v.map (Line.entry [k])).map fun l => (l, r) := by
    rw [readLine_entry hk hv, Option.map_map]
    rfl
  rw [readLines_of_readLine hstarts hline]
  cases v <;> rfl

/-- **A printed file reads as the lines of its rows**, if all of them are read. -/
theorem readLines_printed {rows : List (List Char × Row)} {fuel : Nat}
    (h : ∀ r ∈ rows, passed? false r.1 = some false ∧ r.2.Legal) (hfuel : rows.length + 2 ≤ fuel) :
    readLines fuel (printed rows ++ ['\n']) = allLines? rows := by
  induction rows generalizing fuel with
  | nil =>
    obtain ⟨fuel, rfl⟩ := Nat.exists_eq_add_of_le' (show 1 ≤ fuel by simp at hfuel; omega)
    rfl
  | cons r rows ih =>
    obtain ⟨comment, row⟩ := r
    obtain ⟨⟨hcomment, hlegal⟩, hrows⟩ := List.forall_mem_cons.mp h
    rw [List.length_cons] at hfuel
    obtain ⟨fuel, rfl⟩ := Nat.exists_eq_add_of_le' (show 2 ≤ fuel by omega)
    have hrest := ih hrows (show rows.length + 2 ≤ fuel + 1 by omega)
    simp only [printed, List.append_assoc, List.cons_append, allLines?]
    rw [readLines_append hcomment]
    cases row with
    | blank =>
      have hend : passed? false ['\n'] = some false := rfl
      have hnewline : readLines (fuel + 2) ('\n' :: (printed rows ++ ['\n']))
          = readLines (fuel + 2) (printed rows ++ ['\n']) := readLines_append hend _ _
      have hrest := ih hrows (show rows.length + 2 ≤ fuel + 2 by omega)
      simp only [Row.chars, Row.lines?, List.nil_append, Option.bind_some]
      rw [hnewline, hrest]
      cases allLines? rows <;> rfl
    | header k =>
      rw [readLines_header hlegal, hrest]
      rfl
    | entry k text v =>
      rw [readLines_entry hlegal.1 hlegal.2, hrest]
      cases v <;> rfl

end Routing.Toml
