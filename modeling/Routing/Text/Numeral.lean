/-!
# Decimal numerals

Reading of decimal numerals with a bound: digits are accumulated one by one, and reading stops
with `none` as soon as the value passes the bound.

* `natural?_toDigits`: the decimal text of a number within the bound reads back as the number.
-/

namespace Routing.Text.Numeral

/-- The value of an ASCII digit. -/
def digit? (c : Char) : Option Nat :=
  if '0' ≤ c ∧ c ≤ '9' then some (c.toNat - 48) else none

/-- Reads digits onto `acc`; `none` at another character or beyond `limit`. -/
def accumulate (limit : Nat) (acc : Nat) : List Char → Option Nat
  | [] => some acc
  | c :: r =>
    match digit? c with
    | none => none
    | some d => if 10 * acc + d ≤ limit then accumulate limit (10 * acc + d) r else none

/-- Reads a nonempty string of digits with a value of at most `limit`. -/
def natural? (limit : Nat) : List Char → Option Nat
  | [] => none
  | c :: r => accumulate limit 0 (c :: r)

/-- Reads digits that may have a plus sign in front. -/
def unsigned? (limit : Nat) : List Char → Option Nat
  | '+' :: r => natural? limit r
  | s => natural? limit s

/-- Reads digits that may have a sign in front, within the range of 64 bit integers. -/
def int64? : List Char → Option Int
  | '+' :: r => (natural? (Nat.pow 2 63 - 1) r).map Int.ofNat
  | '-' :: r => (natural? (Nat.pow 2 63) r).map fun n => -Int.ofNat n
  | s => (natural? (Nat.pow 2 63 - 1) s).map Int.ofNat

/-! ## Laws -/

theorem accumulate_append (limit acc : Nat) (s t : List Char) :
    accumulate limit acc (s ++ t)
      = (accumulate limit acc s).bind fun a => accumulate limit a t := by
  induction s generalizing acc with
  | nil => rfl
  | cons c s ih =>
    simp only [List.cons_append, accumulate]
    cases digit? c with
    | none => rfl
    | some d =>
      dsimp only
      split
      · exact ih _
      · rfl

theorem digit?_digitChar {d : Nat} (h : d < 10) : digit? d.digitChar = some d := by
  have : ∀ m : Fin 10, digit? (Nat.digitChar m.1) = some m.1 := by decide
  exact this ⟨d, h⟩

theorem accumulate_toDigits {limit n : Nat} (h : n ≤ limit) :
    accumulate limit 0 (Nat.toDigits 10 n) = some n := by
  induction n using Nat.strongRecOn with
  | _ n ih =>
    by_cases hn : n < 10
    · rw [Nat.toDigits_of_lt_base hn]
      simp [accumulate, digit?_digitChar hn, h]
    · have hdiv : 0 < n / 10 := by omega
      have hmod : n % 10 < 10 := by omega
      have hsplit : Nat.toDigits 10 n = Nat.toDigits 10 (n / 10) ++ [Nat.digitChar (n % 10)] := by
        have := Nat.toDigits_append_toDigits (b := 10) (n := n / 10) (d := n % 10) (by decide)
          hdiv hmod
        rw [Nat.toDigits_of_lt_base hmod] at this
        rw [this]
        congr 1
        omega
      have hle : 10 * (n / 10) + n % 10 = n := by omega
      rw [hsplit, accumulate_append, ih (n / 10) (by omega) (by omega)]
      simp only [Option.bind, accumulate, digit?_digitChar hmod, hle, if_pos h]

theorem natural?_toDigits {limit n : Nat} (h : n ≤ limit) :
    natural? limit (Nat.toDigits 10 n) = some n := by
  have := accumulate_toDigits h
  cases hd : Nat.toDigits 10 n with
  | nil => exact absurd hd Nat.toDigits_ne_nil
  | cons c r => rw [hd] at this; exact this

end Routing.Text.Numeral
