import Routing.Proofs.Text.Numeral
import Routing.Toml.Scalar

/-!
# What printed scalars read as

A whole number is printed in decimal digits and a truth value as a word, each at the end of its
line. Both read back; a number only if it has 64 bits with the sign.

* `takeDigits_toDigits`: the digits of a decimal text are those of its number.
* `readScalar_toDigits`: a decimal text at the end of a line reads as its number.
* `readScalar_true`, `readScalar_false`: the words for the truth values read as these.
-/

namespace Routing.Toml

/-! ## Decimal texts -/

theorem digitBelow?_digitChar {d : Nat} (h : d < 10) : digitBelow? 10 d.digitChar = some d := by
  have hall : ∀ m : Fin 10, digitBelow? 10 (Nat.digitChar m.1) = some m.1 := by decide
  exact hall ⟨d, h⟩

/-- Digits that follow another one than zero in front are taken to the end of the text. -/
theorem takeDigits_of_accumulate {limit acc n : Nat} {s : List Char}
    (h : Text.Numeral.accumulate limit acc s = some n) :
    ∃ ds, takeDigits 10 false ⟨false, false, false⟩ s = some (ds, []) ∧
      ds.foldl (fun n d => 10 * n + d) acc = n := by
  induction s generalizing acc with
  | nil => exact ⟨[], rfl, Option.some.inj h⟩
  | cons c s ih =>
    obtain ⟨d, hd, rfl, hs⟩ := Text.Numeral.accumulate_cons_eq_some h
    obtain ⟨ds, htake, hvalue⟩ := ih hs
    refine ⟨d :: ds, ?_, hvalue⟩
    simp only [takeDigits, digitBelow?_digitChar hd]
    simp [htake]

/-- A decimal text of more than one digit does not start with a zero. -/
theorem eq_nil_of_toDigits_eq_zero_cons {n : Nat} {s : List Char}
    (h : Nat.toDigits 10 n = '0' :: s) : s = [] := by
  cases s with
  | nil => rfl
  | cons c r =>
    have hread := Text.Numeral.accumulate_toDigits (Nat.le_refl n)
    rw [h] at hread
    have hrest : Text.Numeral.natural? n (c :: r) = some n := by
      obtain ⟨d, hd, hchar, hs⟩ := Text.Numeral.accumulate_cons_eq_some hread
      have hzero : d = 0 := by
        have hall : ∀ m : Fin 10, '0' = Nat.digitChar m.1 → m.1 = 0 := by decide
        exact hall ⟨d, hd⟩ hchar
      rw [hzero] at hs
      exact hs
    -- the text would be its own end
    obtain ⟨k, hk⟩ := Text.Numeral.eq_zeros_append_toDigits hrest
    have hlength := congrArg List.length hk
    simp only [h, List.length_append, List.length_cons] at hlength
    omega

/-- **The digits of a decimal text** are taken to its end, and their value is the number. -/
theorem takeDigits_toDigits (n : Nat) :
    ∃ ds, takeDigits 10 false {} (Nat.toDigits 10 n) = some (ds, []) ∧ digitsValue 10 ds = n := by
  cases hn : Nat.toDigits 10 n with
  | nil => exact absurd hn Nat.toDigits_ne_nil
  | cons c s =>
    have hread := Text.Numeral.accumulate_toDigits (Nat.le_refl n)
    rw [hn] at hread
    obtain ⟨d, hd, rfl, hs⟩ := Text.Numeral.accumulate_cons_eq_some hread
    by_cases hzero : d = 0
    · subst hzero
      obtain rfl := eq_nil_of_toDigits_eq_zero_cons hn
      exact ⟨[0], rfl, Option.some.inj hs⟩
    · obtain ⟨ds, htake, hvalue⟩ := takeDigits_of_accumulate hs
      refine ⟨d :: ds, ?_, hvalue⟩
      simp only [takeDigits, digitBelow?_digitChar hd]
      simp [hzero, htake]

/-! ## Words at the end of a line -/

/-- A word: it is not empty, and every character of it may stand in a word. -/
def IsWord (w : List Char) : Prop :=
  w ≠ [] ∧ ∀ c ∈ w, isWordChar c = true

instance (w : List Char) : Decidable (IsWord w) :=
  decidable_of_iff ((!w.isEmpty && w.all isWordChar) = true) (by simp [IsWord])

theorem takeWord_append {w : List Char} (h : IsWord w) {c : Char} (hc : isWordChar c = false)
    (r : List Char) : takeWord (w ++ c :: r) = (w, c :: r) := by
  unfold takeWord
  rw [List.takeWhile_append_of_pos h.2, List.dropWhile_append_of_pos h.2]
  simp [hc]

variable {w : List Char}

theorem isWord_of_isDigit (hne : w ≠ []) (h : ∀ c ∈ w, c.isDigit = true) : IsWord w :=
  ⟨hne, fun c hc => by simp [isWordChar, Char.isAlphanum, h c hc]⟩

theorem not_mem_of_isDigit (h : ∀ c ∈ w, c.isDigit = true) {c : Char} (hc : c.isDigit = false) :
    c ∉ w := fun hmem => by
  rw [h c hmem] at hc
  exact absurd hc (by simp)

theorem not_mem_of_isWord (h : IsWord w) {c : Char} (hc : isWordChar c = false) : c ∉ w :=
  fun hmem => by
    rw [h.2 c hmem] at hc
    exact absurd hc (by simp)

/-- Digits have no sign in front. -/
theorem takeSigned_of_isDigit (h : ∀ c ∈ w, c.isDigit = true) (zeros : Bool) :
    takeSigned zeros w = (takeDigits 10 zeros {} w).map fun p => (false, p) := by
  unfold takeSigned
  split
  · exact absurd List.mem_cons_self (not_mem_of_isDigit h (by decide))
  · exact absurd List.mem_cons_self (not_mem_of_isDigit h (by decide))
  · rfl

theorem ne_of_isDigit (h : ∀ c ∈ w, c.isDigit = true) {c : Char} {u : List Char} (hc : c ∈ u)
    (hdigit : c.isDigit = false) : w ≠ u := fun e =>
  not_mem_of_isDigit h hdigit (e ▸ hc)

/-- Digits are not the name of a number. -/
theorem special?_of_isDigit (h : ∀ c ∈ w, c.isDigit = true) : special? w = none := by
  have hn : ∀ u : List Char, 'n' ∈ u → w ≠ u := fun u hu => ne_of_isDigit h hu (by decide)
  unfold special?
  rw [if_neg (hn _ (by decide)), if_neg (hn _ (by decide)), if_neg (hn _ (by decide)),
    if_neg (hn _ (by decide))]

/-- Digits at the end of a line have no other radix, no fraction and no exponent. -/
theorem readNumber_of_isDigit (h : ∀ c ∈ w, c.isDigit = true) (r : List Char) :
    readNumber w ('\n' :: r) = (decimalInteger? w).map fun v => (v, '\n' :: r) := by
  have hno : ∀ c, c.isDigit = false → w.contains c = false := fun c hc => by
    simpa using not_mem_of_isDigit h hc
  unfold readNumber
  split
  · exact absurd (by simp) (not_mem_of_isDigit h (show 'x'.isDigit = false by decide))
  · exact absurd (by simp) (not_mem_of_isDigit h (show 'o'.isDigit = false by decide))
  · exact absurd (by simp) (not_mem_of_isDigit h (show 'b'.isDigit = false by decide))
  · rw [hno 'e' (by decide), hno 'E' (by decide), special?_of_isDigit h]
    rfl

/-- Digits at the end of a line are no date. -/
theorem readNumberOrMoment_of_isDigit (h : ∀ c ∈ w, c.isDigit = true) (r : List Char) :
    readNumberOrMoment w ('\n' :: r) = (decimalInteger? w).map fun v => (v, '\n' :: r) := by
  have hno : ∀ u : List Char, (∀ c ∈ u, c ∈ w) → ∀ c, c.isDigit = false → u.contains c = false :=
    fun u hu c hc => by simpa using fun hmem => not_mem_of_isDigit h hc (hu c hmem)
  have hdated : looksDated w = false := by
    unfold looksDated
    rw [hno w (fun _ hc => hc) 'T' (by decide), hno w (fun _ hc => hc) 't' (by decide),
      hno (w.drop 1) (fun _ hc => List.mem_of_mem_drop hc) '-' (by decide)]
    rfl
  unfold readNumberOrMoment
  rw [hdated]
  exact readNumber_of_isDigit h r

/-- **Digits at the end of a line read as a whole number.** -/
theorem readScalar_of_isDigit (hne : w ≠ []) (h : ∀ c ∈ w, c.isDigit = true) (r : List Char) :
    readScalar (w ++ '\n' :: r) = (decimalInteger? w).map fun v => (v, '\n' :: r) := by
  have htake := takeWord_append (isWord_of_isDigit hne h) (c := '\n') (by decide) r
  have htrue : w ≠ ['t', 'r', 'u', 'e'] :=
    ne_of_isDigit h (c := 't') (by decide) (by decide)
  have hfalse : w ≠ ['f', 'a', 'l', 's', 'e'] :=
    ne_of_isDigit h (c := 'f') (by decide) (by decide)
  obtain ⟨c, w, rfl⟩ := List.exists_cons_of_ne_nil hne
  have hc : c.isDigit = true := h c List.mem_cons_self
  unfold readScalar
  split
  · rename_i t ht
    have hplus : c = '+' := (List.cons.inj ht).1
    rw [hplus] at hc
    exact absurd hc (by decide)
  · simp only [htake, htrue, hfalse, hc, if_false, Bool.or_true, if_true]
    exact readNumberOrMoment_of_isDigit h r

/-- **A decimal text at the end of a line reads as its number**, if that has 64 bits. -/
theorem readScalar_toDigits (n : Nat) (r : List Char) :
    readScalar (Nat.toDigits 10 n ++ '\n' :: r)
      = (integer? false n).map fun v => (v, '\n' :: r) := by
  have hdigit : ∀ c ∈ Nat.toDigits 10 n, c.isDigit = true := fun c hc =>
    Nat.isDigit_of_mem_toDigits (by decide) (by decide) hc
  obtain ⟨ds, htake, hvalue⟩ := takeDigits_toDigits n
  rw [readScalar_of_isDigit Nat.toDigits_ne_nil hdigit, decimalInteger?,
    takeSigned_of_isDigit hdigit, htake]
  simp only [Option.map_some, hvalue]

/-- **The words for the truth values read as these.** -/
theorem readScalar_true (r : List Char) :
    readScalar ("true".toList ++ '\n' :: r) = some (.boolean true, '\n' :: r) := by
  rfl

theorem readScalar_false (r : List Char) :
    readScalar ("false".toList ++ '\n' :: r) = some (.boolean false, '\n' :: r) := by
  rfl

end Routing.Toml
