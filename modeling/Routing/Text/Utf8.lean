/-!
# UTF-8

Texts as bytes and back. Decoding splits the bytes into characters and ill-formed pieces, each
piece being as long as it can be a start of a character; strict decoding wants no such piece, and
lenient decoding puts the replacement character in its place.

* `first_encodeChar`: the character read first off encoded text is the one written first.
* `decode?_encode`: encoded text decodes to itself.
-/

namespace Routing

/-- Raw content: of bodies and files. -/
abbrev Bytes := List UInt8

namespace Text.Utf8

/-- The bytes of one character. -/
def encodeChar (c : Char) : Bytes :=
  let n := c.toNat
  if n < 0x80 then [n.toUInt8]
  else if n < 0x800 then [(0xC0 + n / 64).toUInt8, (0x80 + n % 64).toUInt8]
  else if n < 0x10000 then
    [(0xE0 + n / 4096).toUInt8, (0x80 + n / 64 % 64).toUInt8, (0x80 + n % 64).toUInt8]
  else
    [(0xF0 + n / 262144).toUInt8, (0x80 + n / 4096 % 64).toUInt8, (0x80 + n / 64 % 64).toUInt8,
      (0x80 + n % 64).toUInt8]

/-- The bytes of a text. -/
def encodeChars (s : List Char) : Bytes :=
  s.flatMap encodeChar

/-- The bytes of a text. -/
def encode (s : String) : Bytes :=
  encodeChars s.toList

/-- Whether `b` lies between `low` and `high`. -/
def within (low high b : Nat) : Bool :=
  low ≤ b && b ≤ high

/-- The least second byte that may follow the first byte of a character. -/
def secondLow (b : Nat) : Nat :=
  if b = 0xE0 then 0xA0 else if b = 0xF0 then 0x90 else 0x80

/-- The greatest second byte that may follow the first byte of a character. -/
def secondHigh (b : Nat) : Nat :=
  if b = 0xED then 0x9F else if b = 0xF4 then 0x8F else 0xBF

/-- The character that `b` and the bytes after it start with, or `none` for an ill-formed piece,
and the number of further bytes that belong to it. -/
def first (b : UInt8) (r : Bytes) : Option Char × Nat :=
  let b0 := b.toNat
  if b0 < 0x80 then (some (Char.ofNat b0), 0)
  else if within 0xC2 0xDF b0 then
    match r with
    | [] => (none, 0)
    | c :: _ =>
      if within 0x80 0xBF c.toNat then
        (some (Char.ofNat ((b0 - 0xC0) * 64 + (c.toNat - 0x80))), 1)
      else (none, 0)
  else if within 0xE0 0xEF b0 then
    match r with
    | [] => (none, 0)
    | c :: r1 =>
      if within (secondLow b0) (secondHigh b0) c.toNat then
        match r1 with
        | [] => (none, 1)
        | d :: _ =>
          if within 0x80 0xBF d.toNat then
            (some (Char.ofNat
              ((b0 - 0xE0) * 4096 + (c.toNat - 0x80) * 64 + (d.toNat - 0x80))), 2)
          else (none, 1)
      else (none, 0)
  else if within 0xF0 0xF4 b0 then
    match r with
    | [] => (none, 0)
    | c :: r1 =>
      if within (secondLow b0) (secondHigh b0) c.toNat then
        match r1 with
        | [] => (none, 1)
        | d :: r2 =>
          if within 0x80 0xBF d.toNat then
            match r2 with
            | [] => (none, 2)
            | e :: _ =>
              if within 0x80 0xBF e.toNat then
                (some (Char.ofNat ((b0 - 0xF0) * 262144 + (c.toNat - 0x80) * 4096
                  + (d.toNat - 0x80) * 64 + (e.toNat - 0x80))), 3)
              else (none, 2)
          else (none, 1)
      else (none, 0)
  else (none, 0)

/-- The characters of the bytes after the first `skip` of them, with `none` for each longest
ill-formed piece. -/
def piecesAfter : Nat → Bytes → List (Option Char)
  | _, [] => []
  | k + 1, _ :: r => piecesAfter k r
  | 0, b :: r => (first b r).1 :: piecesAfter (first b r).2 r

/-- The characters of the bytes, with `none` for each longest ill-formed piece. -/
def pieces (bs : Bytes) : List (Option Char) :=
  piecesAfter 0 bs

/-- All characters, if there is no ill-formed piece. -/
def allSome : List (Option Char) → Option (List Char)
  | [] => some []
  | none :: _ => none
  | some c :: r => (allSome r).map (c :: ·)

/-- The characters of well-formed bytes. -/
def decodeChars? (bs : Bytes) : Option (List Char) :=
  allSome (pieces bs)

/-- The text of well-formed bytes. -/
def decode? (bs : Bytes) : Option String :=
  (decodeChars? bs).map String.ofList

/-- The text of any bytes, with the replacement character for ill-formed pieces. -/
def decodeLenient (bs : Bytes) : String :=
  String.ofList ((pieces bs).map fun p => p.getD '\uFFFD')

/-! ## Laws -/

theorem toNat_toUInt8 {n : Nat} (h : n < 256) : n.toUInt8.toNat = n := by
  rw [Nat.toUInt8, UInt8.toNat_ofNat']
  exact Nat.mod_eq_of_lt h

/-- A character is outside the surrogates. -/
theorem toNat_valid (c : Char) :
    c.toNat < 0xD800 ∨ (0xDFFF < c.toNat ∧ c.toNat < 0x110000) := c.valid

theorem first_encodeChar (c : Char) (r : Bytes) :
    ∃ b t, encodeChar c = b :: t ∧ first b (t ++ r) = (some c, t.length) := by
  have hv := toNat_valid c
  have hc : Char.ofNat c.toNat = c := Char.ofNat_toNat c
  generalize hn : c.toNat = n at hv hc
  unfold encodeChar
  simp only [hn]
  by_cases h1 : n < 0x80
  · refine ⟨n.toUInt8, [], by simp [h1], ?_⟩
    unfold first
    simp only [toNat_toUInt8 (show n < 256 by omega), h1, if_true, hc, List.length_nil]
  · by_cases h2 : n < 0x800
    · refine ⟨(0xC0 + n / 64).toUInt8, [(0x80 + n % 64).toUInt8], by simp [h1, h2], ?_⟩
      unfold first
      simp only [toNat_toUInt8 (show 0xC0 + n / 64 < 256 by omega),
        toNat_toUInt8 (show 0x80 + n % 64 < 256 by omega), List.cons_append, List.nil_append,
        within]
      rw [if_neg (by omega), if_pos (by simp; omega), if_pos (by simp; omega)]
      have : (0xC0 + n / 64 - 0xC0) * 64 + (0x80 + n % 64 - 0x80) = n := by omega
      simp only [this, hc, List.length_cons, List.length_nil]
    · by_cases h3 : n < 0x10000
      · refine ⟨(0xE0 + n / 4096).toUInt8,
          [(0x80 + n / 64 % 64).toUInt8, (0x80 + n % 64).toUInt8], by simp [h1, h2, h3], ?_⟩
        unfold first
        simp only [toNat_toUInt8 (show 0xE0 + n / 4096 < 256 by omega),
          toNat_toUInt8 (show 0x80 + n / 64 % 64 < 256 by omega),
          toNat_toUInt8 (show 0x80 + n % 64 < 256 by omega), List.cons_append, List.nil_append,
          within]
        have hs : secondLow (0xE0 + n / 4096) ≤ 0x80 + n / 64 % 64
            ∧ 0x80 + n / 64 % 64 ≤ secondHigh (0xE0 + n / 4096) := by
          unfold secondLow secondHigh
          constructor
          · split
            · omega
            · split <;> omega
          · split
            · omega
            · split <;> omega
        rw [if_neg (by omega), if_neg (by simp; omega), if_pos (by simp; omega),
          if_pos (by simp [hs.1, hs.2]), if_pos (by simp; omega)]
        have : (0xE0 + n / 4096 - 0xE0) * 4096 + (0x80 + n / 64 % 64 - 0x80) * 64
            + (0x80 + n % 64 - 0x80) = n := by omega
        simp only [this, hc, List.length_cons, List.length_nil]
      · refine ⟨(0xF0 + n / 262144).toUInt8, [(0x80 + n / 4096 % 64).toUInt8,
          (0x80 + n / 64 % 64).toUInt8, (0x80 + n % 64).toUInt8], by simp [h1, h2, h3], ?_⟩
        unfold first
        simp only [toNat_toUInt8 (show 0xF0 + n / 262144 < 256 by omega),
          toNat_toUInt8 (show 0x80 + n / 4096 % 64 < 256 by omega),
          toNat_toUInt8 (show 0x80 + n / 64 % 64 < 256 by omega),
          toNat_toUInt8 (show 0x80 + n % 64 < 256 by omega), List.cons_append, List.nil_append,
          within]
        have hs : secondLow (0xF0 + n / 262144) ≤ 0x80 + n / 4096 % 64
            ∧ 0x80 + n / 4096 % 64 ≤ secondHigh (0xF0 + n / 262144) := by
          unfold secondLow secondHigh
          constructor
          · split
            · omega
            · split <;> omega
          · split
            · omega
            · split <;> omega
        rw [if_neg (by omega), if_neg (by simp; omega), if_neg (by simp; omega),
          if_pos (by simp; omega), if_pos (by simp [hs.1, hs.2]), if_pos (by simp; omega),
          if_pos (by simp; omega)]
        have : (0xF0 + n / 262144 - 0xF0) * 262144 + (0x80 + n / 4096 % 64 - 0x80) * 4096
            + (0x80 + n / 64 % 64 - 0x80) * 64 + (0x80 + n % 64 - 0x80) = n := by omega
        simp only [this, hc, List.length_cons, List.length_nil]

theorem piecesAfter_length_append (t r : Bytes) : piecesAfter t.length (t ++ r) = pieces r := by
  induction t with
  | nil => rfl
  | cons b t ih => simpa [piecesAfter] using ih

theorem pieces_encodeChar_append (c : Char) (r : Bytes) :
    pieces (encodeChar c ++ r) = some c :: pieces r := by
  obtain ⟨b, t, he, hf⟩ := first_encodeChar c r
  rw [he]
  show piecesAfter 0 (b :: (t ++ r)) = _
  rw [piecesAfter, hf, piecesAfter_length_append]

theorem decodeChars?_encodeChars (s : List Char) : decodeChars? (encodeChars s) = some s := by
  induction s with
  | nil => rfl
  | cons c s ih =>
    have : encodeChars (c :: s) = encodeChar c ++ encodeChars s := rfl
    unfold decodeChars? at *
    rw [this, pieces_encodeChar_append, allSome, ih]
    rfl

theorem decode?_encode (s : String) : decode? (encode s) = some s := by
  simp [decode?, encode, decodeChars?_encodeChars, String.ofList_toList]

theorem encode_ne_nil {s : String} (h : s ≠ "") : encode s ≠ [] := by
  intro he
  have hdecode := decode?_encode s
  rw [he] at hdecode
  exact h (Option.some.inj hdecode).symm

end Text.Utf8

end Routing
