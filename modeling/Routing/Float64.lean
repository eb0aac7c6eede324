import Routing.Text.Numeral

/-!
# Double precision numbers

IEEE 754 numbers of 64 bits, as bit patterns, so that two of them are the same exactly when their
bits are. Arithmetic is exact on ratios of naturals and rounds once, to the nearest number and to
an even significand on a tie.
-/

namespace Routing

/-- A double precision number, as its bits. -/
structure Float64 where
  /-- Sign, eleven bits of exponent and 52 bits of significand. -/
  bits : UInt64
deriving DecidableEq, Inhabited

namespace Float64

/-- The bits below the sign. -/
def magnitude (x : Float64) : Nat :=
  x.bits.toNat % Nat.pow 2 63

/-- Whether the sign bit is set. -/
def isNegative (x : Float64) : Bool :=
  Nat.pow 2 63 ≤ x.bits.toNat

/-- Whether `x` is no number. -/
def isNaN (x : Float64) : Bool :=
  0x7FF0000000000000 < x.magnitude

/-- Whether `x` is an infinity. -/
def isInfinite (x : Float64) : Bool :=
  x.magnitude = 0x7FF0000000000000

/-- Whether `x` is a zero, of either sign. -/
def isZero (x : Float64) : Bool :=
  x.magnitude = 0

/-- Equality of numbers: no NaN equals anything, and the two zeros are equal. -/
def numericEq (x y : Float64) : Bool :=
  !x.isNaN && !y.isNaN && (x.bits = y.bits || (x.isZero && y.isZero))

/-- The number of a magnitude with a sign. -/
def ofMagnitude (negative : Bool) (m : Nat) : Float64 :=
  ⟨((if negative then Nat.pow 2 63 else 0) + m).toUInt64⟩

/-- The number with the other sign. -/
def neg (x : Float64) : Float64 :=
  ofMagnitude (!x.isNegative) x.magnitude

/-- The significand and the exponent of two whose product is the absolute value of a finite
number. -/
def parts (x : Float64) : Nat × Int :=
  let e : Nat := x.magnitude / Nat.pow 2 52
  let m : Nat := x.magnitude % Nat.pow 2 52
  if e = 0 then (m, -1074) else (m + Nat.pow 2 52, Int.ofNat e - 1075)

/-- The absolute value of a finite number as a ratio. -/
def ratio (x : Float64) : Nat × Nat :=
  let (m, e) := x.parts
  (m * Nat.pow 2 e.toNat, Nat.pow 2 (-e).toNat)

/-- The quotient rounded to the nearest natural, to the even one on a tie. -/
def roundDiv (num den : Nat) : Nat :=
  let q := num / den
  let r := num % den
  if 2 * r < den then q
  else if den < 2 * r then q + 1
  else q + q % 2

/-- The number nearest to a ratio, with a sign; an infinity beyond the greatest number. -/
def ofRatio (negative : Bool) (num den : Nat) : Float64 :=
  if num = 0 then ofMagnitude negative 0
  else
    let guess : Int := (Nat.log2 num : Int) - Nat.log2 den - 52
    let low := num * Nat.pow 2 (-guess).toNat < den * Nat.pow 2 guess.toNat * Nat.pow 2 52
    let e : Int := max (if low then guess - 1 else guess) (-1074)
    let q := roundDiv (num * Nat.pow 2 (-e).toNat) (den * Nat.pow 2 e.toNat)
    let (q, e) := if q = Nat.pow 2 53 then (Nat.pow 2 52, e + 1) else (q, e)
    if 971 < e then ofMagnitude negative 0x7FF0000000000000
    else if q < Nat.pow 2 52 then ofMagnitude negative q
    else ofMagnitude negative ((e + 1075).toNat * Nat.pow 2 52 + (q - Nat.pow 2 52))

/-- The number nearest to a natural. -/
def ofNat (n : Nat) : Float64 :=
  ofRatio false n 1

/-- The product of two finite numbers. -/
def mul (x y : Float64) : Float64 :=
  ofRatio (x.isNegative != y.isNegative) (x.ratio.1 * y.ratio.1) (x.ratio.2 * y.ratio.2)

/-- The quotient of two finite numbers, the second of which is not zero. -/
def div (x y : Float64) : Float64 :=
  ofRatio (x.isNegative != y.isNegative) (x.ratio.1 * y.ratio.2) (x.ratio.2 * y.ratio.1)

/-! ## Decimal text -/

/-- The number of decimal digits in the whole part of `num / den`, or minus the number of zeros
after its point. -/
def decimalExponent (num den : Nat) : Int :=
  if den ≤ num then (Nat.toDigits 10 (num / den)).length
  else 1 - (Nat.toDigits 10 (den / num)).length

/-- Whether the decimal `d * 10 ^ k` lies between the ratios `low` and `high`, whose ends count
if `closed`. -/
def decimalWithin (low high : Nat × Nat) (closed : Bool) (d : Nat) (k : Int) : Bool :=
  let num := d * Nat.pow 10 k.toNat
  let den := Nat.pow 10 (-k).toNat
  if closed then low.1 * den ≤ num * low.2 && num * high.2 ≤ high.1 * den
  else low.1 * den < num * low.2 && num * high.2 < high.1 * den

/-- The ratios halfway to the neighbours of a positive finite number. -/
def halfway (x : Float64) : (Nat × Nat) × (Nat × Nat) :=
  let (m, e) := x.parts
  let up := (2 * m + 1, e - 1)
  let down := if m = Nat.pow 2 52 ∧ -1074 < e then (4 * m - 1, e - 2) else (2 * m - 1, e - 1)
  let toRatio : Nat × Int → Nat × Nat := fun p =>
    (p.1 * Nat.pow 2 p.2.toNat, Nat.pow 2 (-p.2).toNat)
  (toRatio down, toRatio up)

/-- The decimal with the fewest digits, at least `digits` of them, that rounds to a positive finite
number: digits and exponent of ten. -/
def shortestFrom (x : Float64) : Nat → Nat → Nat × Int
  | 0, digits => (0, digits)
  | fuel + 1, digits =>
    let (num, den) := x.ratio
    let k : Int := decimalExponent num den - digits
    let (low, high) := x.halfway
    let closed : Bool := x.parts.1 % 2 = 0
    let n := num * Nat.pow 10 (-k).toNat
    let m := den * Nat.pow 10 k.toNat
    let d := n / m
    let near := if 2 * (n % m) ≤ m then [d, d + 1] else [d + 1, d]
    match near.find? fun d => d != 0 && decimalWithin low high closed d k with
    | some d => (d, k)
    | none => shortestFrom x fuel (digits + 1)

/-- The fewest decimal digits that round to a positive finite number, and the exponent of ten of
the last one; no digit at the end is a zero. -/
def shortest (x : Float64) : List Char × Int :=
  let (d, k) := shortestFrom x 18 1
  let ds := Nat.toDigits 10 d
  let kept := (ds.reverse.dropWhile (· = '0')).reverse
  (kept, k + (ds.length - kept.length : Nat))

/-- The decimal text of a finite number: positional from `10 ^ -5` up to `10 ^ 16`, with an
exponent beyond, and with a point or an exponent in any case. -/
def text (x : Float64) : List Char :=
  let sign := if x.isNegative then ['-'] else []
  if x.isZero then sign ++ ['0', '.', '0']
  else
    let (ds, k) := x.shortest
    let point : Int := ds.length + k
    sign ++
      if 0 ≤ k ∧ point ≤ 16 then ds ++ List.replicate k.toNat '0' ++ ['.', '0']
      else if 0 < point ∧ point ≤ 16 then ds.take point.toNat ++ '.' :: ds.drop point.toNat
      else if -5 < point ∧ point ≤ 0 then
        ['0', '.'] ++ List.replicate (-point).toNat '0' ++ ds
      else
        let exponent := 'e' :: (toString (point - 1)).toList
        match ds with
        | [d] => d :: exponent
        | d :: r => d :: '.' :: r ++ exponent
        | [] => exponent

end Float64

end Routing
