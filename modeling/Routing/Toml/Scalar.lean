import Routing.Toml.Basic
import Routing.Toml.Quoted

/-!
# Numbers, truth values and dates in TOML

These are written without quotes, as words of letters, digits, dashes and underscores with points,
colons and plus signs between them. Underscores may stand between digits, one at a time, and a
decimal number has no zero in front.
-/

namespace Routing.Toml

/-- Whether a character may stand in a word. -/
def isWordChar (c : Char) : Bool :=
  c.isAlphanum || c = '-' || c = '_'

/-- The word at the front, and the rest. -/
def takeWord (s : List Char) : List Char × List Char :=
  (s.takeWhile isWordChar, s.dropWhile isWordChar)

/-- The rest after the word at the front, if there is one. -/
def afterWord? (s : List Char) : Option (List Char) :=
  match takeWord s with
  | ([], _) => none
  | (_, r) => some r

/-! ## Digits -/

/-- The value of a digit below a radix. -/
def digitBelow? (radix : Nat) (c : Char) : Option Nat :=
  match Text.Hex.digit? c with
  | some d => if d < radix then some d else none
  | none => none

/-- Where a run of digits has come to. -/
structure DigitRun where
  /-- Whether there was no digit yet. -/
  isFirst : Bool := true
  /-- Whether the first digit is a zero. -/
  zeroFirst : Bool := false
  /-- Whether the last character is an underscore. -/
  onUnderscore : Bool := false

/-- The digits at the front, and the rest. Fails without a digit, on an underscore that is not
between digits, and, unless `zeros` allows it, on more digits after a zero in front. -/
def takeDigits (radix : Nat) (zeros : Bool) :
    DigitRun → List Char → Option (List Nat × List Char)
  | run, [] => if run.isFirst || run.onUnderscore then none else some ([], [])
  | run, c :: r =>
    match digitBelow? radix c with
    | some d =>
      if run.zeroFirst && !zeros then none
      else
        let zeroFirst := run.zeroFirst || (run.isFirst && d = 0)
        (takeDigits radix zeros ⟨false, zeroFirst, false⟩ r).map fun (ds, t) => (d :: ds, t)
    | none =>
      if run.isFirst || run.onUnderscore then none
      else if c = '_' then takeDigits radix zeros { run with onUnderscore := true } r
      else some ([], c :: r)

/-- The digits at the front after a sign, whether the sign is a minus, and the rest. -/
def takeSigned (zeros : Bool) : List Char → Option (Bool × List Nat × List Char)
  | '-' :: r => (takeDigits 10 zeros {} r).map fun p => (true, p)
  | '+' :: r => (takeDigits 10 zeros {} r).map fun p => (false, p)
  | s => (takeDigits 10 zeros {} s).map fun p => (false, p)

/-- The value of digits, most significant first. -/
def digitsValue (radix : Nat) (ds : List Nat) : Nat :=
  ds.foldl (fun n d => radix * n + d) 0

/-! ## Numbers -/

/-- The whole number with a sign, if it has 64 bits. -/
def integer? (negative : Bool) (n : Nat) : Option Value :=
  if negative then if n ≤ Nat.pow 2 63 then some (.integer (-n)) else none
  else if n < Nat.pow 2 63 then some (.integer n) else none

/-- The whole number that a word after a radix mark stands for. -/
def radixInteger? (radix : Nat) (word : List Char) : Option Value :=
  match takeDigits radix true {} word with
  | some (ds, []) => integer? false (digitsValue radix ds)
  | _ => none

/-- The whole number that a decimal word stands for. -/
def decimalInteger? (word : List Char) : Option Value :=
  match takeSigned false word with
  | some (negative, ds, []) => integer? negative (digitsValue 10 ds)
  | _ => none

/-- The number `m * 10 ^ e` with a sign, if it is finite. -/
def finite? (negative : Bool) (m : Nat) (e : Int) : Option Float64 :=
  let size := (Nat.toDigits 10 m).length + e
  if m = 0 || size < -400 then some (.ofRatio negative 0 1)
  else if 400 < size then none
  else
    let x := Float64.ofRatio negative (m * Nat.pow 10 e.toNat) (Nat.pow 10 (-e).toNat)
    if x.isInfinite then none else some x

/-- The exponent in front of the rest of a number. It goes on after the word if the word ends with
the exponent mark: the plus sign is no part of a word. -/
def readExponent (word rest : List Char) : Option (Int × List Char) :=
  match word with
  | [] => some (0, rest)
  | [_] =>
    let s := match rest with
      | '+' :: r => r
      | r => r
    match takeWord s with
    | (w, t) =>
      match takeDigits 10 true {} w with
      | some (ds, []) => some (digitsValue 10 ds, t)
      | _ => none
  | _ :: w =>
    match takeSigned true w with
    | some (negative, ds, []) =>
      let n : Int := digitsValue 10 ds
      some (if negative then -n else n, rest)
    | _ => none

/-- Whether a text is empty or starts with the mark of an exponent. -/
def startsExponent : List Char → Bool
  | [] => true
  | c :: _ => c = 'e' || c = 'E'

/-- A number with a fraction or an exponent, given the word before its point, the word after it if
there is one, and the rest. -/
def readFloat (word : List Char) (after : Option (List Char)) (rest : List Char) :
    Option (Value × List Char) :=
  match takeSigned false word with
  | none => none
  | some (negative, whole, suffix) =>
    let fraction : Option (List Nat × List Char) :=
      match after with
      | none => some ([], suffix)
      | some a => if suffix = [] then takeDigits 10 true {} a else none
    match fraction with
    | none => none
    | some (ds, suffix) =>
      if startsExponent suffix then
        match readExponent suffix rest with
        | none => none
        | some (e, t) =>
          (finite? negative (digitsValue 10 (whole ++ ds)) (e - ds.length)).map fun x =>
            (.float x, t)
      else none

/-- The number that is no finite one and that a word stands for. -/
def special? (word : List Char) : Option Float64 :=
  if word = ['i', 'n', 'f'] then some (.ofMagnitude false 0x7FF0000000000000)
  else if word = ['-', 'i', 'n', 'f'] then some (.ofMagnitude true 0x7FF0000000000000)
  else if word = ['n', 'a', 'n'] then some (.ofMagnitude false 0x7FF8000000000000)
  else if word = ['-', 'n', 'a', 'n'] then some (.ofMagnitude true 0x7FF8000000000000)
  else none

/-- The number that starts with a word, and the rest. -/
def readNumber (word rest : List Char) : Option (Value × List Char) :=
  let whole (v : Option Value) := v.map fun v => (v, rest)
  match word with
  | '0' :: 'x' :: ds => whole (radixInteger? 16 ds)
  | '0' :: 'o' :: ds => whole (radixInteger? 8 ds)
  | '0' :: 'b' :: ds => whole (radixInteger? 2 ds)
  | _ =>
    if word.contains 'e' || word.contains 'E' then readFloat word none rest
    else
      match rest with
      | '.' :: r =>
        match takeWord r with
        | ([], _) => none
        | (after, t) => readFloat word (some after) t
      | _ =>
        match special? word with
        | some x => some (.float x, rest)
        | none => whole (decimalInteger? word)

/-! ## Dates -/

/-- Whether a dash follows the mark of an exponent somewhere. -/
def hasNegativeExponent : List Char → Bool
  | a :: b :: r => ((a = 'e' || a = 'E') && b = '-') || hasNegativeExponent (b :: r)
  | _ => false

/-- Whether a word looks like a date. -/
def looksDated (word : List Char) : Bool :=
  word.contains 'T' || word.contains 't'
    || ((word.drop 1).contains '-' && !hasNegativeExponent word)

/-- The rest after an hour that is written one space after a date. -/
def skipHour (s : List Char) : List Char :=
  match s with
  | ' ' :: r => (afterWord? r).getD s
  | _ => s

/-- The rest after a mark with a word, if the mark is there. -/
def skipMarked (mark : Char) (s : List Char) : Option (List Char) :=
  match s with
  | c :: r => if c = mark then afterWord? r else some s
  | [] => some []

/-- The rest after the minutes and seconds, a fraction and an offset of a time. -/
def afterMinutes? (s : List Char) : Option (List Char) :=
  match afterWord? s with
  | some (':' :: r) =>
    (afterWord? r).bind fun t => (skipMarked '.' t).bind fun t =>
      (skipMarked '+' t).bind (skipMarked ':')
  | _ => none

/-- The rest after a date and time whose first word was read. -/
def afterMoment? (s : List Char) : Option (List Char) :=
  match skipHour s with
  | ':' :: r => afterMinutes? r
  | r => some r

/-! ## Words -/

/-- A number or a date that starts with a word. -/
def readNumberOrMoment (word rest : List Char) : Option (Value × List Char) :=
  if looksDated word then (afterMoment? rest).map fun r => (.moment, r)
  else
    match rest with
    | ':' :: r => (afterMinutes? (skipHour r)).map fun t => (.moment, t)
    | _ => readNumber word rest

/-- The value that is written without quotes at the front, and the rest. -/
def readScalar (s : List Char) : Option (Value × List Char) :=
  match s with
  | '+' :: r =>
    match takeWord r with
    | ([], _) => none
    | (word, rest) => readNumber word rest
  | _ =>
    match takeWord s with
    | ([], _) => none
    | (c :: w, rest) =>
      let word := c :: w
      if word = ['t', 'r', 'u', 'e'] then some (.boolean true, rest)
      else if word = ['f', 'a', 'l', 's', 'e'] then some (.boolean false, rest)
      else if word = ['i', 'n', 'f'] || word = ['n', 'a', 'n'] || c = '-' || c.isDigit then
        readNumberOrMoment word rest
      else none

end Routing.Toml
