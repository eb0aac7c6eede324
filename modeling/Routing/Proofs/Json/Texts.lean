import Routing.Json.Printer
import Routing.Json.Reader

/-!
# Texts in JSON

A text that is printed between quotes reads back as itself, whatever it holds: quotes, backslashes
and control characters are written by escapes, and everything else by its bytes, none of which can
be taken for a quote or an escape. So every text can be the one text of a record, and a printed
record shows which one it is.

* `textBytes_escapeChar`: one character reads back, in front of anything.
* `expectText_quote`: a text reads back, in front of anything.
* `readRecord?_compact`: the text of a record reads back.
* `compact_record_injective`: records that are printed alike hold the same text.
-/

namespace Routing.Json

open Text.Utf8 (encodeChar encodeChars encode)

/-- What is read after a piece of a text, with the bytes of the piece in front. -/
def pushBytes (bs : Bytes) : Option (Bytes × Bytes) → Option (Bytes × Bytes) :=
  Option.map fun p => (bs ++ p.1, p.2)

theorem pushBytes_append (bs cs : Bytes) (p : Option (Bytes × Bytes)) :
    pushBytes (bs ++ cs) p = pushBytes bs (pushBytes cs p) := by
  cases p <;> simp [pushBytes]

/-- A byte that stands for itself within a text. -/
def IsPlainByte (b : UInt8) : Prop :=
  0x20 ≤ b.toNat ∧ b.toNat ≠ 0x22 ∧ b.toNat ≠ 0x5C

/-! ## Characters that stand for themselves -/

theorem textBytes_cons {b : UInt8} (hb : IsPlainByte b) (r : Bytes) :
    textBytes (b :: r) = pushBytes [b] (textBytes r) := by
  obtain ⟨hlow, hquote, hslash⟩ := hb
  have hquote' : b ≠ 0x22 := fun h => hquote (congrArg UInt8.toNat h)
  have hslash' : b ≠ 0x5C := fun h => hslash (congrArg UInt8.toNat h)
  have hlow' : ¬ b < 0x20 := fun h => absurd (UInt8.lt_iff_toNat_lt.mp h) (Nat.not_lt.mpr hlow)
  rw [textBytes.eq_def]
  split
  · rename_i h; cases h
  · rename_i h; exact absurd (List.cons.inj h).1 hquote'
  · rename_i h; exact absurd (List.cons.inj h).1 hslash'
  · rename_i h; exact absurd (List.cons.inj h).1 hslash'
  · rename_i h
    obtain ⟨rfl, rfl⟩ := List.cons.inj h
    simp [hlow', hslash', pushBytes]

theorem textBytes_append {bs : Bytes} (hbs : ∀ b ∈ bs, IsPlainByte b) (r : Bytes) :
    textBytes (bs ++ r) = pushBytes bs (textBytes r) := by
  induction bs with
  | nil => cases h : textBytes r <;> simp [pushBytes, h]
  | cons b bs ih =>
    obtain ⟨hb, htail⟩ := List.forall_mem_cons.mp hbs
    rw [List.cons_append, textBytes_cons hb, ih htail, ← pushBytes_append]
    rfl

theorem isPlainByte_of_mem {c : Char} (hlow : 0x20 ≤ c.toNat) (hquote : c ≠ '"')
    (hslash : c ≠ '\\') : ∀ b ∈ encodeChar c, IsPlainByte b := by
  have hquote' : c.toNat ≠ 0x22 := fun h => hquote (Char.toNat_inj.mp h)
  have hslash' : c.toNat ≠ 0x5C := fun h => hslash (Char.toNat_inj.mp h)
  have hvalid := Text.Utf8.toNat_valid c
  -- only characters below `0x80` have bytes below `0x80`
  have hbyte : ∀ n, (n = c.toNat ∨ 0x80 ≤ n) → n < 256 → IsPlainByte n.toUInt8 := by
    intro n hn hlt
    unfold IsPlainByte
    rw [Text.Utf8.toNat_toUInt8 hlt]
    omega
  intro b hb
  unfold encodeChar at hb
  simp only at hb
  split at hb
  · simp only [List.mem_singleton] at hb
    exact hb ▸ hbyte _ (by omega) (by omega)
  split at hb
  · simp only [List.mem_cons, List.not_mem_nil, or_false] at hb
    rcases hb with rfl | rfl <;> exact hbyte _ (by omega) (by omega)
  split at hb
  · simp only [List.mem_cons, List.not_mem_nil, or_false] at hb
    rcases hb with rfl | rfl | rfl <;> exact hbyte _ (by omega) (by omega)
  · simp only [List.mem_cons, List.not_mem_nil, or_false] at hb
    rcases hb with rfl | rfl | rfl | rfl <;> exact hbyte _ (by omega) (by omega)

/-! ## Escapes -/

/-- A control character is read off its number. -/
theorem textBytes_control {c : Char} (hc : c.toNat < 0x20) (r : Bytes) :
    textBytes (encodeChars ['\\', 'u', '0', '0', Text.Hex.digit (c.toNat / 16),
        Text.Hex.digit (c.toNat % 16)] ++ r) = pushBytes (encodeChar c) (textBytes r) := by
  have hdigits : ∀ n : Fin 32,
      encodeChars ['\\', 'u', '0', '0', Text.Hex.digit (n / 16), Text.Hex.digit (n % 16)]
          = [0x5C, 0x75, 0x30, 0x30, (Text.Hex.digit (n / 16)).toNat.toUInt8,
            (Text.Hex.digit (n % 16)).toNat.toUInt8] ∧
        hexUnit? 0x30 0x30 (Text.Hex.digit (n / 16)).toNat.toUInt8
          (Text.Hex.digit (n % 16)).toNat.toUInt8 = some n.1 := by
    decide +kernel
  obtain ⟨hbytes, hunit⟩ := hdigits ⟨c.toNat, hc⟩
  simp only at hbytes hunit
  have htrailing : isTrailingUnit c.toNat = false := by
    simp [isTrailingUnit]; omega
  have hleading : isLeadingUnit c.toNat = false := by
    simp [isLeadingUnit]; omega
  rw [hbytes, List.cons_append, List.cons_append, List.cons_append, List.cons_append,
    List.cons_append, List.cons_append, List.nil_append, textBytes]
  simp only [hunit, htrailing, hleading, Char.ofNat_toNat]
  rfl

/-- **A character reads back**, in front of anything. -/
theorem textBytes_escapeChar (c : Char) (r : Bytes) :
    textBytes (encodeChars (escapeChar c) ++ r) = pushBytes (encodeChar c) (textBytes r) := by
  unfold escapeChar
  split
  · subst_vars; rfl
  split
  · subst_vars; rfl
  split
  · subst_vars; rfl
  split
  · subst_vars; rfl
  split
  · subst_vars; rfl
  split
  · subst_vars; rfl
  split
  · subst_vars; rfl
  split
  · rename_i hc
    exact textBytes_control hc r
  · rename_i hquote hslash _ _ _ _ _ hlow
    rw [encodeChars, List.flatMap_cons, List.flatMap_nil, List.append_nil]
    exact textBytes_append (isPlainByte_of_mem (Nat.not_lt.mp hlow) hquote hslash) r

theorem encodeChars_append (s t : List Char) :
    encodeChars (s ++ t) = encodeChars s ++ encodeChars t :=
  List.flatMap_append

theorem encodeChars_cons (c : Char) (s : List Char) :
    encodeChars (c :: s) = encodeChar c ++ encodeChars s := rfl

theorem textBytes_escape (s : List Char) (r : Bytes) :
    textBytes (encodeChars (s.flatMap escapeChar) ++ 0x22 :: r) = some (encodeChars s, r) := by
  induction s with
  | nil => rfl
  | cons c s ih =>
    rw [List.flatMap_cons, encodeChars_append, List.append_assoc, textBytes_escapeChar, ih]
    rfl

/-! ## Records -/

theorem skipBlanks_cons {b : UInt8} (hb : isBlankByte b = false) (r : Bytes) :
    skipBlanks (b :: r) = b :: r :=
  List.dropWhile_cons_of_neg (by simp [hb])

/-- **A text reads back**, in front of anything. -/
theorem expectText_quote (s : String) (r : Bytes) :
    expectText (encodeChars (quoteChars s.toList) ++ r) = some (s, r) := by
  have hquote : encodeChars (quoteChars s.toList) ++ r
      = 0x22 :: (encodeChars (s.toList.flatMap escapeChar) ++ 0x22 :: r) := by
    rw [quoteChars, List.cons_append, encodeChars_cons, encodeChars_append, List.append_assoc,
      List.append_assoc]
    rfl
  have hdecode : Text.Utf8.decode? (encodeChars s.toList) = some s := Text.Utf8.decode?_encode s
  rw [hquote, expectText, skipBlanks_cons (by decide)]
  simp only [readText, textBytes_escape, Option.bind_some, hdecode, Option.map_some]

/-- The bytes of a record with one text. -/
theorem encode_compact (field s : String) :
    encode (compact (.object [(field, .text s)]))
      = 0x7B :: (encodeChars (quoteChars field.toList) ++
          0x3A :: (encodeChars (quoteChars s.toList) ++ [0x7D])) := by
  have hchars : (compact (.object [(field, .text s)])).toList
      = '{' :: (quoteChars field.toList ++ ':' :: quoteChars s.toList) ++ ['}'] :=
    String.toList_ofList
  rw [encode, hchars, List.cons_append, List.append_assoc, List.cons_append, encodeChars_cons,
    encodeChars_append, encodeChars_cons, encodeChars_append]
  rfl

/-- **The text of a record reads back.** -/
theorem readRecord?_compact (field s : String) :
    readRecord? field (encode (compact (.object [(field, .text s)]))) = some s := by
  have hcolon (r : Bytes) : skipBlanks (0x3A :: r) = 0x3A :: r := skipBlanks_cons (by decide) r
  rw [encode_compact, readRecord?, skipBlanks_cons (by decide)]
  -- one member is read, and the closing brace ends the record
  simp only [recordMembers, expectText_quote, Option.bind_some, hcolon, Option.isSome_none,
    if_true, Option.map_some]
  rfl

/-- **Records that are printed alike hold the same text.** -/
theorem compact_record_injective {field s t : String}
    (h : encode (compact (.object [(field, .text s)]))
      = encode (compact (.object [(field, .text t)]))) : s = t := by
  have hs := readRecord?_compact field s
  rw [h, readRecord?_compact] at hs
  exact (Option.some.inj hs).symm

end Routing.Json
