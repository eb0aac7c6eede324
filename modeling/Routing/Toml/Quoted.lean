import Routing.Text.Hex

/-!
# Quoted texts in TOML

A text stands between double quotes, with escapes, or between single quotes, without. Three quotes
at either end allow it to span lines; a line end right after the opening quotes is not part of it,
and a backslash at the end of a line takes that line end and all blanks after it away.

* `read_encode`: what `encode` writes, on one line between double quotes, reads back.
-/

namespace Routing.Toml.Quoted

/-- How a text is written. -/
structure Style where
  /-- The quote at either end. -/
  quote : Char
  /-- Whether a backslash starts an escape. -/
  escapes : Bool
  /-- Whether the text may span lines. -/
  lines : Bool

/-- What is passed over before the text goes on. -/
inductive Gap where
  /-- Nothing. -/
  | none
  /-- Blanks up to a line end, which must come. -/
  | lineEnd
  /-- Blanks and line ends. -/
  | blanks
deriving DecidableEq

/-- Whether a character is a blank within a line. -/
def isBlank (c : Char) : Bool :=
  c = ' ' || c = '\t'

/-- Whether a character may stand in a text as it is. -/
def isPlain (c : Char) : Bool :=
  c = '\t' || (0x20 ≤ c.toNat && c.toNat ≠ 0x7F)

/-- The character that a letter after a backslash stands for. -/
def escaped? (c : Char) : Option Char :=
  if c = '"' then some '"'
  else if c = '\\' then some '\\'
  else if c = 'b' then some '\x08'
  else if c = 'f' then some '\x0c'
  else if c = 'n' then some '\n'
  else if c = 'r' then some '\r'
  else if c = 't' then some '\t'
  else none

/-- The character with a number in hexadecimal digits. -/
def numbered? (ds : List Char) : Option Char :=
  match Text.Hex.value? ds with
  | none => none
  | some n => if n < 0xD800 || (0xDFFF < n && n < 0x110000) then some (Char.ofNat n) else none

/-- The quotes after three closing quotes that still belong to the text, two at most, and the
rest. -/
def closing (q : Char) : List Char → List Char × List Char
  | a :: b :: r => if a = q then if b = q then ([q, q], r) else ([q], b :: r) else ([], a :: b :: r)
  | [a] => if a = q then ([q], []) else ([], [a])
  | [] => ([], [])

/-- Puts a character in front of a text that was read. -/
def push (c : Char) (p : Option (List Char × List Char)) : Option (List Char × List Char) :=
  p.map fun (s, r) => (c :: s, r)

/-- A text after its opening quotes, and the rest after its closing quotes. -/
def body (st : Style) : Gap → List Char → Option (List Char × List Char)
  | _, [] => none
  | gap, c :: r =>
    if gap = .blanks && (isBlank c || c = '\n') then body st .blanks r
    else if gap = .lineEnd then
      if isBlank c then body st .lineEnd r
      else if c = '\n' then body st .blanks r
      else none
    else if c = '\n' then
      if st.lines then push c (body st .none r) else none
    else if c = st.quote then
      if st.lines then
        match r with
        | a :: b :: t => if a = c && b = c then some (closing c t) else push c (body st .none r)
        | _ => push c (body st .none r)
      else some ([], r)
    else if c = '\\' && st.escapes then
      match r with
      | 'u' :: a :: b :: c :: d :: t =>
        match numbered? [a, b, c, d] with
        | none => none
        | some x => push x (body st .none t)
      | 'U' :: a :: b :: c :: d :: e :: f :: g :: h :: t =>
        match numbered? [a, b, c, d, e, f, g, h] with
        | none => none
        | some x => push x (body st .none t)
      | e :: t =>
        if st.lines && isBlank e then body st .lineEnd t
        else if st.lines && e = '\n' then body st .blanks t
        else
          match escaped? e with
          | none => none
          | some x => push x (body st .none t)
      | [] => none
    else if isPlain c then push c (body st .none r)
    else none

/-- A text after its first quote, whether it may span lines, and the rest. -/
def read (q : Char) (escapes : Bool) (s : List Char) : Option (Bool × List Char × List Char) :=
  let onLine := (body ⟨q, escapes, false⟩ .none s).map fun p => (false, p)
  match s with
  | a :: b :: '\n' :: r =>
    if a = q && b = q then (body ⟨q, escapes, true⟩ .none r).map fun p => (true, p) else onLine
  | a :: b :: r =>
    if a = q && b = q then (body ⟨q, escapes, true⟩ .none r).map fun p => (true, p) else onLine
  | _ => onLine

/-- The written form of a character between double quotes. -/
def encodeChar (c : Char) : List Char :=
  if c = '\x08' then ['\\', 'b']
  else if c = '\t' then ['\\', 't']
  else if c = '\n' then ['\\', 'n']
  else if c = '\x0c' then ['\\', 'f']
  else if c = '\r' then ['\\', 'r']
  else if c = '"' then ['\\', '"']
  else if c = '\\' then ['\\', '\\']
  else if c.toNat ≤ 0x1F || c.toNat = 0x7F then
    '\\' :: 'u' :: (Text.Hex.padded 4 c.toNat).map Char.toUpper
  else [c]

/-- The written form of a text, on one line between double quotes. -/
def encode (s : List Char) : List Char :=
  '"' :: s.flatMap encodeChar ++ ['"']

/-! ## Laws -/

/-- The style between double quotes on one line. -/
def oneLine : Style := ⟨'"', true, false⟩

theorem control_of_toNat {c : Char} (h : c.toNat ≤ 0x1F ∨ c.toNat = 0x7F) :
    ∃ a b d e, (Text.Hex.padded 4 c.toNat).map Char.toUpper = [a, b, d, e]
      ∧ numbered? [a, b, d, e] = some c := by
  have small : ∀ n : Fin 128, n.1 ≤ 0x1F ∨ n.1 = 0x7F →
      ((Text.Hex.padded 4 n.1).map Char.toUpper).length = 4 ∧
        numbered? ((Text.Hex.padded 4 n.1).map Char.toUpper) = some (Char.ofNat n.1) := by
    decide +kernel
  obtain ⟨hl, hn⟩ := small ⟨c.toNat, by omega⟩ h
  simp only [Char.ofNat_toNat] at hn
  match hm : (Text.Hex.padded 4 c.toNat).map Char.toUpper, hl with
  | [a, b, d, e], _ => exact ⟨a, b, d, e, rfl, by rw [← hm]; exact hn⟩

theorem body_encodeChar (c : Char) (r : List Char) :
    body oneLine .none (encodeChar c ++ r) = push c (body oneLine .none r) := by
  unfold encodeChar
  split
  · subst_vars; rfl
  split
  · subst_vars; rfl
  split
  · subst_vars; rfl
  split
  · subst_vars; rfl
  split
  · subst_vars; rfl
  split
  · subst_vars; rfl
  split
  · subst_vars; rfl
  split
  · rename_i h
    obtain ⟨a, b, d, e, hd, hn⟩ := control_of_toNat (by simpa using h)
    rw [hd]
    simp [body, oneLine, hn]
  · rename_i hn hq hb hc
    have hplain : isPlain c = true := by
      simp only [Bool.or_eq_true, decide_eq_true_eq, not_or, Nat.not_le] at hc
      simp [isPlain]
      omega
    rw [body.eq_def]
    simp_all [oneLine]

theorem body_encode (s r : List Char) :
    body oneLine .none (s.flatMap encodeChar ++ '"' :: r) = some (s, r) := by
  induction s with
  | nil => rw [List.flatMap_nil, List.nil_append, body.eq_def]; simp [oneLine]
  | cons c s ih => rw [List.flatMap_cons, List.append_assoc, body_encodeChar, ih]; rfl

theorem encodeChar_eq_cons (c : Char) : ∃ a r, encodeChar c = a :: r ∧ a ≠ '"' := by
  unfold encodeChar
  repeat' split
  all_goals simp_all

/-- What `encode` writes reads back, unless another quote follows, as it could start three. -/
theorem read_encode (s r : List Char) (h : r.head? ≠ some '"') :
    read '"' true (encode s ++ r).tail = some (false, s, r) := by
  have hb : body ⟨'"', true, false⟩ .none (s.flatMap encodeChar ++ '"' :: r) = some (s, r) :=
    body_encode s r
  have ht : (encode s ++ r).tail = s.flatMap encodeChar ++ '"' :: r := by simp [encode]
  rw [ht]
  unfold read
  rw [hb]
  cases s with
  | nil =>
    match r, h with
    | [], _ => rfl
    | x :: t, h =>
      have hx : x ≠ '"' := by simpa using h
      cases t <;> simp [hx]; split <;> simp_all
  | cons c s =>
    obtain ⟨a, t, ha, hq⟩ := encodeChar_eq_cons c
    simp only [List.flatMap_cons, ha, List.cons_append]
    split <;> simp_all

end Routing.Toml.Quoted
