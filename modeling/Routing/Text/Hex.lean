/-!
# Hexadecimal digits

* `digit?_digit`: a written digit reads back as its value.
-/

namespace Routing.Text.Hex

/-- The lower case digit of a value below sixteen. -/
def digit (n : Nat) : Char :=
  if n < 10 then Char.ofNat (48 + n) else Char.ofNat (87 + n)

/-- The value of a digit of either case. -/
def digit? (c : Char) : Option Nat :=
  let n := c.toNat
  if 48 ≤ n && n ≤ 57 then some (n - 48)
  else if 97 ≤ n && n ≤ 102 then some (n - 87)
  else if 65 ≤ n && n ≤ 70 then some (n - 55)
  else none

/-- The digits of a number, at least `width` of them. -/
def padded (width n : Nat) : List Char :=
  let ds := (Nat.toDigits 16 n)
  List.replicate (width - ds.length) '0' ++ ds

/-- The value of a digit string, most significant digit first, if every character is a digit. -/
def value? : List Char → Option Nat :=
  go 0
where
  /-- The value with the digits read so far in front. -/
  go (acc : Nat) : List Char → Option Nat
    | [] => some acc
    | c :: r => (digit? c).bind fun d => go (16 * acc + d) r

theorem digit?_digit {n : Nat} (h : n < 16) : digit? (digit n) = some n := by
  have : ∀ m : Fin 16, digit? (digit m.1) = some m.1 := by decide
  exact this ⟨n, h⟩

end Routing.Text.Hex
