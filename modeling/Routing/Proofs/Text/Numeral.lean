import Routing.Text.Numeral

/-!
# What a numeral reads as

* `natural?_eq_some_iff`: what is read is the value of the digits, within the limit.
* `eq_zeros_append_toDigits`: a text that reads as a number is its decimal text behind zeros.
* `int64?_of_isDigit`: behind a digit there is no sign.
* `int64?_replicate_zero`: zeros read as zero.
-/

namespace Routing.Text.Numeral

theorem isSome_digit? (c : Char) : (digit? c).isSome = c.isDigit := by
  unfold digit? Char.isDigit
  by_cases h : '0' ≤ c ∧ c ≤ '9'
  · rw [if_pos h]
    exact (Bool.and_eq_true_iff.mpr ⟨decide_eq_true h.1, decide_eq_true h.2⟩).symm
  · rw [if_neg h]
    exact (Bool.eq_false_iff.mpr fun hb =>
      h ((Bool.and_eq_true_iff.mp hb).imp of_decide_eq_true of_decide_eq_true)).symm

/-- The digit of a value. -/
theorem eq_digitChar_of_digit? {c : Char} {d : Nat} (h : digit? c = some d) :
    d < 10 ∧ c = d.digitChar := by
  unfold digit? at h
  split at h
  · rename_i hc
    have hlow : 48 ≤ c.toNat := hc.1
    have hhigh : c.toNat ≤ 57 := hc.2
    obtain rfl := Option.some.inj h
    have hd : c.toNat - 48 < 10 := by omega
    have hchar : ∀ m : Fin 10, Char.ofNat (48 + m.1) = Nat.digitChar m.1 := by decide
    refine ⟨hd, ?_⟩
    rw [← hchar ⟨_, hd⟩, Nat.add_sub_cancel' hlow, Char.ofNat_toNat]
  · exact absurd h (by simp)

theorem accumulate_cons_eq_some {limit acc n : Nat} {c : Char} {s : List Char}
    (h : accumulate limit acc (c :: s) = some n) :
    ∃ d < 10, c = d.digitChar ∧ accumulate limit (10 * acc + d) s = some n := by
  rw [accumulate] at h
  split at h
  · exact absurd h (by simp)
  · rename_i d hd
    obtain ⟨hlt, hc⟩ := eq_digitChar_of_digit? hd
    split at h
    · exact ⟨d, hlt, hc, h⟩
    · exact absurd h (by simp)

/-- Digits do not make a number smaller. -/
theorem le_ofDigitChars (s : List Char) (acc : Nat) : acc ≤ Nat.ofDigitChars 10 s acc := by
  induction s generalizing acc with
  | nil => exact Nat.le_of_eq Nat.ofDigitChars_nil.symm
  | cons c s ih =>
    rw [Nat.ofDigitChars_cons]
    exact Nat.le_trans (by omega) (ih _)

theorem digit?_eq_some_iff {c : Char} {d : Nat} :
    digit? c = some d ↔ c.isDigit = true ∧ d = c.toNat - '0'.toNat := by
  have hzero : '0'.toNat = 48 := rfl
  rw [← isSome_digit?, hzero]
  unfold digit?
  split
  · simp [eq_comm]
  · simp

/-- What is read onto a number is the value of the digits behind it. As it only grows, it stays
within the limit on the way if it does at the end. -/
theorem accumulate_eq_some_iff {limit acc n : Nat} {s : List Char} (hacc : acc ≤ limit) :
    accumulate limit acc s = some n ↔
      (∀ c ∈ s, c.isDigit = true) ∧ n = Nat.ofDigitChars 10 s acc ∧ n ≤ limit := by
  induction s generalizing acc with
  | nil =>
    rw [accumulate, Option.some.injEq, Nat.ofDigitChars_nil]
    exact ⟨fun h => ⟨List.forall_mem_nil _, h.symm, h ▸ hacc⟩, fun h => h.2.1.symm⟩
  | cons c s ih =>
    rw [List.forall_mem_cons, Nat.ofDigitChars_cons, accumulate]
    cases hd : digit? c with
    | none =>
      have hc : ¬ c.isDigit = true := by rw [← isSome_digit?, hd]; simp
      simp [hc]
    | some d =>
      obtain ⟨hc, rfl⟩ := digit?_eq_some_iff.mp hd
      dsimp only
      split
      · rename_i hle
        rw [ih hle, and_iff_right hc]
      · rename_i hgt
        refine ⟨fun h => absurd h (by simp), ?_⟩
        rintro ⟨-, rfl, hle⟩
        exact absurd (Nat.le_trans (le_ofDigitChars s _) hle) hgt

/-- **What is read is the value of the digits**, of which there is one at least, within the
limit. -/
theorem natural?_eq_some_iff {limit n : Nat} {s : List Char} :
    natural? limit s = some n ↔
      s ≠ [] ∧ (∀ c ∈ s, c.isDigit = true) ∧ n = Nat.ofDigitChars 10 s 0 ∧ n ≤ limit := by
  cases s with
  | nil => simp [natural?]
  | cons c s =>
    rw [natural?, accumulate_eq_some_iff (Nat.zero_le limit), and_iff_right (List.cons_ne_nil c s)]

/-- Digits behind a number that is not zero are the digits of what is read. -/
theorem toDigits_append_of_accumulate {limit acc n : Nat} {s : List Char} (hacc : 0 < acc)
    (h : accumulate limit acc s = some n) : Nat.toDigits 10 acc ++ s = Nat.toDigits 10 n := by
  induction s generalizing acc with
  | nil => rw [List.append_nil, Option.some.inj h]
  | cons c s ih =>
    obtain ⟨d, hd, rfl, hs⟩ := accumulate_cons_eq_some h
    rw [← ih (by omega) hs, ← Nat.toDigits_append_toDigits (by decide) hacc hd,
      Nat.toDigits_of_lt_base hd, List.append_assoc, List.singleton_append]

/-- **A numeral is a decimal text behind zeros.** -/
theorem eq_zeros_append_toDigits {limit n : Nat} {s : List Char} (h : natural? limit s = some n) :
    ∃ k, s = List.replicate k '0' ++ Nat.toDigits 10 n := by
  induction s with
  | nil => exact absurd h (by simp [natural?])
  | cons c s ih =>
    obtain ⟨d, hd, rfl, hs⟩ := accumulate_cons_eq_some h
    rw [Nat.mul_zero, Nat.zero_add] at hs
    rcases Nat.eq_zero_or_pos d with rfl | hpos
    · cases s with
      | nil =>
        obtain rfl := Option.some.inj hs
        exact ⟨0, rfl⟩
      | cons c' s =>
        obtain ⟨k, hk⟩ := ih hs
        exact ⟨k + 1, by rw [hk]; rfl⟩
    · refine ⟨0, ?_⟩
      rw [← toDigits_append_of_accumulate hpos hs, Nat.toDigits_of_lt_base hd]
      rfl

theorem int64?_of_isDigit {c : Char} {s : List Char} (hc : c.isDigit = true) :
    int64? (c :: s) = (natural? (Nat.pow 2 63 - 1) (c :: s)).map Int.ofNat := by
  unfold int64?
  split
  · rename_i heq
    obtain ⟨rfl, -⟩ := List.cons.inj heq
    exact absurd hc (by decide)
  · rename_i heq
    obtain ⟨rfl, -⟩ := List.cons.inj heq
    exact absurd hc (by decide)
  · rfl

theorem accumulate_replicate_zero (limit n : Nat) :
    accumulate limit 0 (List.replicate n '0') = some 0 := by
  induction n with
  | zero => rfl
  | succ n ih =>
    have hzero : digit? '0' = some 0 := rfl
    rw [List.replicate_succ, accumulate, hzero]
    simpa using ih

/-- However many zeros there are, they read as zero. -/
theorem int64?_replicate_zero (n : Nat) : int64? (List.replicate (n + 1) '0') = some 0 := by
  rw [List.replicate_succ, int64?_of_isDigit rfl, natural?, ← List.replicate_succ,
    accumulate_replicate_zero]
  rfl

end Routing.Text.Numeral
