import Routing.Json.Basic
import Routing.Text.Hex
import Routing.Text.Utf8

/-!
# Reading of JSON

JSON is read from bytes, in two ways. `Json.read?` builds the value: texts have to be well-formed,
numbers within the range of double precision and containers at most 127 deep; of members with one
name the last counts. `Json.readRecord?` looks for one text member of an object and passes over
the others, of which it only wants that their brackets, quotes and numbers are in order.
-/

namespace Routing.Json

/-- Whether a byte is a blank between the parts of a value. -/
def isBlankByte (b : UInt8) : Bool :=
  b = 0x20 || b = 0x0A || b = 0x0D || b = 0x09

/-- The bytes from the first one that is no blank. -/
def skipBlanks (bs : Bytes) : Bytes :=
  bs.dropWhile isBlankByte

/-- The bytes after a literal at their start. -/
def afterLiteral? : List UInt8 → Bytes → Option Bytes
  | [], bs => some bs
  | _ :: _, [] => none
  | l :: ls, b :: bs => if l = b then afterLiteral? ls bs else none

/-- The value of four hexadecimal digits. -/
def hexUnit? (a b c d : UInt8) : Option Nat :=
  Text.Hex.value? ([a, b, c, d].map fun x => Char.ofNat x.toNat)

/-- The byte that the letter of an escape stands for. -/
def escapedByte? (b : UInt8) : Option UInt8 :=
  if b = 0x22 || b = 0x5C || b = 0x2F then some b
  else if b = 0x62 then some 0x08
  else if b = 0x66 then some 0x0C
  else if b = 0x6E then some 0x0A
  else if b = 0x72 then some 0x0D
  else if b = 0x74 then some 0x09
  else none

/-- Whether a UTF-16 unit is the first half of a pair. -/
def isLeadingUnit (n : Nat) : Bool :=
  0xD800 ≤ n && n ≤ 0xDBFF

/-- Whether a UTF-16 unit is the second half of a pair. -/
def isTrailingUnit (n : Nat) : Bool :=
  0xDC00 ≤ n && n ≤ 0xDFFF

/-- The content of a text after its opening quote, escapes resolved, and the bytes after the closing
quote. Halves of UTF-16 pairs must stand in pairs. -/
def textBytes : Bytes → Option (Bytes × Bytes)
  | [] => none
  | 0x22 :: r => some ([], r)
  | 0x5C :: 0x75 :: a :: b :: c :: d :: r =>
    match hexUnit? a b c d with
    | none => none
    | some n =>
      if isTrailingUnit n then none
      else if isLeadingUnit n then
        match r with
        | 0x5C :: 0x75 :: a' :: b' :: c' :: d' :: r' =>
          match hexUnit? a' b' c' d' with
          | none => none
          | some m =>
            if isTrailingUnit m then
              (textBytes r').map fun (s, t) =>
                (Text.Utf8.encodeChar
                  (Char.ofNat ((n - 0xD800) * 0x400 + (m - 0xDC00) + 0x10000)) ++ s, t)
            else none
        | _ => none
      else (textBytes r).map fun (s, t) => (Text.Utf8.encodeChar (Char.ofNat n) ++ s, t)
  | 0x5C :: e :: r =>
    match escapedByte? e with
    | none => none
    | some b => (textBytes r).map fun (s, t) => (b :: s, t)
  | b :: r => if b < 0x20 || b = 0x5C then none else (textBytes r).map fun (s, t) => (b :: s, t)

/-- A text after its opening quote, and the bytes after the closing quote. -/
def readText (bs : Bytes) : Option (String × Bytes) :=
  (textBytes bs).bind fun (s, r) => (Text.Utf8.decode? s).map fun t => (t, r)

/-- The bytes after the closing quote of a text that is passed over. -/
def skipText : Bytes → Option Bytes
  | [] => none
  | 0x22 :: r => some r
  | 0x5C :: 0x75 :: a :: b :: c :: d :: r =>
    match hexUnit? a b c d with
    | none => none
    | some _ => skipText r
  | 0x5C :: e :: r =>
    match escapedByte? e with
    | none => none
    | some _ => skipText r
  | b :: r => if b < 0x20 || b = 0x5C then none else skipText r

/-! ## Numbers -/

/-- Whether a byte is an ASCII digit. -/
def isDigitByte (b : UInt8) : Bool :=
  0x30 ≤ b && b ≤ 0x39

/-- The parts of a number as it is written. -/
structure Numeral where
  /-- Whether there is a minus sign. -/
  negative : Bool
  /-- The digits before the point. -/
  whole : List Nat
  /-- The digits after the point, if there is one. -/
  fraction : Option (List Nat)
  /-- Whether the exponent has a minus sign, and its digits, if there is one. -/
  exponent : Option (Bool × List Nat)

/-- The values of the digits at the start, and the bytes after them. -/
def takeDigits (bs : Bytes) : List Nat × Bytes :=
  ((bs.takeWhile isDigitByte).map fun b => b.toNat - 0x30, bs.dropWhile isDigitByte)

/-- The digits before the point; a zero stands alone. -/
def readWhole (bs : Bytes) : Option (List Nat × Bytes) :=
  let (ds, r) := takeDigits bs
  match ds with
  | [] => none
  | 0 :: _ :: _ => none
  | _ => some (ds, r)

/-- The point and the digits after it, at least one, if there is a point. -/
def readFraction : Bytes → Option (Option (List Nat) × Bytes)
  | 0x2E :: r =>
    let (ds, r') := takeDigits r
    if ds.isEmpty then none else some (some ds, r')
  | bs => some (none, bs)

/-- The exponent, if there is one. -/
def readExponent (bs : Bytes) : Option (Option (Bool × List Nat) × Bytes) :=
  match bs with
  | b :: r =>
    if b = 0x65 || b = 0x45 then
      let (negative, r') :=
        match r with
        | 0x2B :: t => (false, t)
        | 0x2D :: t => (true, t)
        | _ => (false, r)
      let (ds, t) := takeDigits r'
      if ds.isEmpty then none else some (some (negative, ds), t)
    else some (none, bs)
  | [] => some (none, [])

/-- A number, and the bytes after it. -/
def readNumeral (bs : Bytes) : Option (Numeral × Bytes) :=
  let (negative, bs) :=
    match bs with
    | 0x2D :: r => (true, r)
    | _ => (false, bs)
  (readWhole bs).bind fun (whole, r) =>
  (readFraction r).bind fun (fraction, r) =>
  (readExponent r).map fun (exponent, r) => (⟨negative, whole, fraction, exponent⟩, r)

/-- Digits joined to a significand as long as it fits 64 bits, and the digits left over. -/
def significand (acc : Nat) : List Nat → Nat × List Nat
  | [] => (acc, [])
  | d :: r => if 10 * acc + d < UInt64.size then significand (10 * acc + d) r else (acc, d :: r)

/-- The value of exponent digits, `none` if it does not fit 31 bits. -/
def exponentValue? (acc : Nat) : List Nat → Option Nat
  | [] => some acc
  | d :: r => if 10 * acc + d < Nat.pow 2 31 then exponentValue? (10 * acc + d) r else none

/-- A power of ten as a number. -/
def powerOfTen (k : Nat) : Float64 :=
  Float64.ofNat (Nat.pow 10 k)

/-- `x * 10 ^ e`, scaled in steps that a table of powers up to `10 ^ 308` allows; `none` beyond
the greatest number. -/
def scale : Nat → Float64 → Int → Option Float64
  | 0, x, _ => some x
  | fuel + 1, x, e =>
    if e.natAbs ≤ 308 then
      if 0 ≤ e then
        let y := x.mul (powerOfTen e.natAbs)
        if y.isInfinite then none else some y
      else some (x.div (powerOfTen e.natAbs))
    else if x.isZero then some x
    else if 0 ≤ e then none
    else scale fuel (x.div (powerOfTen 308)) (e + 308)

/-- The number with a significand and an exponent of ten. -/
def scaled? (negative : Bool) (m : Nat) (e : Int) : Option Json :=
  (scale 4 (Float64.ofNat m) e).map fun x => .float (if negative then x.neg else x)

/-- Clamps to 32 bits. -/
def clamp (e : Int) : Int :=
  max (-2147483648) (min 2147483647 e)

/-- The value of a number: whole if it is written so and fits 64 bits, with a sign if there is one;
otherwise the double precision number of its leading digits, `none` beyond the greatest. -/
def Numeral.value? (n : Numeral) : Option Json :=
  let (m, excess) := significand 0 n.whole
  match n.fraction, n.exponent, excess with
  | none, none, [] =>
    if !n.negative then some (.int m)
    else if m = 0 || Nat.pow 2 63 < m then some (.float (Float64.ofNat m).neg)
    else some (.int (-Int.ofNat m))
  | _, _, _ =>
    let (m, rest) :=
      match n.fraction with
      | none => (m, [])
      | some ds => significand m ds
    let taken := (n.fraction.getD []).length - rest.length
    let start : Int := (excess.length : Int) - taken
    match n.exponent with
    | none => scaled? n.negative m start
    | some (negative, ds) =>
      match exponentValue? 0 ds with
      | some e => scaled? n.negative m (clamp (if negative then start - e else start + e))
      | none =>
        if m ≠ 0 ∧ !negative then none
        else some (.float (Float64.ofMagnitude n.negative 0))

/-! ## Values -/

/-- The bytes of `null`. -/
def nullBytes : Bytes := [0x6E, 0x75, 0x6C, 0x6C]

/-- The bytes of `true`. -/
def trueBytes : Bytes := [0x74, 0x72, 0x75, 0x65]

/-- The bytes of `false`. -/
def falseBytes : Bytes := [0x66, 0x61, 0x6C, 0x73, 0x65]

mutual

/-- The value at the start of the bytes, and the bytes after it. Containers may nest less than
`depth` deep; `fuel` bounds the steps. -/
def readValue : Nat → Nat → Bytes → Option (Json × Bytes)
  | 0, _, _ => none
  | fuel + 1, depth, bs =>
    match skipBlanks bs with
    | [] => none
    | 0x22 :: r => (readText r).map fun (s, t) => (.text s, t)
    | 0x5B :: r =>
      if depth ≤ 1 then none
      else
        match skipBlanks r with
        | 0x5D :: t => some (.array [], t)
        | _ => (readItems fuel (depth - 1) r).map fun (vs, t) => (.array vs, t)
    | 0x7B :: r =>
      if depth ≤ 1 then none
      else
        match skipBlanks r with
        | 0x7D :: t => some (.object [], t)
        | _ => (readMembers fuel (depth - 1) r).map fun (ms, t) => (ofMembers ms, t)
    | b :: r =>
      if b = 0x6E then (afterLiteral? nullBytes (b :: r)).map fun t => (.null, t)
      else if b = 0x74 then (afterLiteral? trueBytes (b :: r)).map fun t => (.bool true, t)
      else if b = 0x66 then (afterLiteral? falseBytes (b :: r)).map fun t => (.bool false, t)
      else (readNumeral (b :: r)).bind fun (n, t) => n.value?.map fun v => (v, t)

/-- Items with commas between them, up to the closing bracket. -/
def readItems : Nat → Nat → Bytes → Option (List Json × Bytes)
  | 0, _, _ => none
  | fuel + 1, depth, bs =>
    (readValue fuel depth bs).bind fun (v, r) =>
      match skipBlanks r with
      | 0x2C :: t => (readItems fuel depth t).map fun (vs, u) => (v :: vs, u)
      | 0x5D :: t => some ([v], t)
      | _ => none

/-- Members with commas between them, up to the closing brace. -/
def readMembers : Nat → Nat → Bytes → Option (List (String × Json) × Bytes)
  | 0, _, _ => none
  | fuel + 1, depth, bs =>
    match skipBlanks bs with
    | 0x22 :: r =>
      (readText r).bind fun (k, r) =>
        match skipBlanks r with
        | 0x3A :: r =>
          (readValue fuel depth r).bind fun (v, r) =>
            match skipBlanks r with
            | 0x2C :: t => (readMembers fuel depth t).map fun (ms, u) => ((k, v) :: ms, u)
            | 0x7D :: t => some ([(k, v)], t)
            | _ => none
        | _ => none
    | _ => none

end

/-- How deep a value may be: containers below this depth. -/
def depthLimit : Nat := 128

/-- The value that the bytes hold, with blanks around it and nothing else. -/
def read? (bs : Bytes) : Option Json :=
  (readValue (bs.length + 1) depthLimit bs).bind fun (v, r) =>
    if (skipBlanks r).isEmpty then some v else none

/-! ## Passing over values -/

mutual

/-- The bytes after the value at their start, which may nest to any depth. -/
def skipValue : Nat → Bytes → Option Bytes
  | 0, _ => none
  | fuel + 1, bs =>
    match skipBlanks bs with
    | [] => none
    | 0x22 :: r => skipText r
    | 0x5B :: r =>
      match skipBlanks r with
      | 0x5D :: t => some t
      | _ => skipItems fuel r
    | 0x7B :: r =>
      match skipBlanks r with
      | 0x7D :: t => some t
      | _ => skipMembers fuel r
    | b :: r =>
      if b = 0x6E then afterLiteral? nullBytes (b :: r)
      else if b = 0x74 then afterLiteral? trueBytes (b :: r)
      else if b = 0x66 then afterLiteral? falseBytes (b :: r)
      else (readNumeral (b :: r)).map fun (_, t) => t

/-- The bytes after items and their closing bracket. -/
def skipItems : Nat → Bytes → Option Bytes
  | 0, _ => none
  | fuel + 1, bs =>
    (skipValue fuel bs).bind fun r =>
      match skipBlanks r with
      | 0x2C :: t => skipItems fuel t
      | 0x5D :: t => some t
      | _ => none

/-- The bytes after members and their closing brace. -/
def skipMembers : Nat → Bytes → Option Bytes
  | 0, _ => none
  | fuel + 1, bs =>
    match skipBlanks bs with
    | 0x22 :: r =>
      (skipText r).bind fun r =>
        match skipBlanks r with
        | 0x3A :: r =>
          (skipValue fuel r).bind fun r =>
            match skipBlanks r with
            | 0x2C :: t => skipMembers fuel t
            | 0x7D :: t => some t
            | _ => none
        | _ => none
    | _ => none

end

/-! ## Records with one text -/

/-- The text at the start of the bytes, after blanks. -/
def expectText (bs : Bytes) : Option (String × Bytes) :=
  match skipBlanks bs with
  | 0x22 :: r => readText r
  | _ => none

/-- The members up to the closing brace, of which `field` must be there once, with a text. `found`
is the text if it was there before. -/
def recordMembers (field : String) : Nat → Option String → Bytes → Option (String × Bytes)
  | 0, _, _ => none
  | fuel + 1, found, bs =>
    (expectText bs).bind fun (k, r) =>
      match skipBlanks r with
      | 0x3A :: r =>
        let step : Option (Option String × Bytes) :=
          if k = field then
            if found.isSome then none else (expectText r).map fun (s, t) => (some s, t)
          else (skipValue fuel r).map fun t => (found, t)
        step.bind fun (found, r) =>
          match skipBlanks r with
          | 0x2C :: t => recordMembers field fuel found t
          | 0x7D :: t => found.map fun s => (s, t)
          | _ => none
      | _ => none

/-- The text that the bytes give for `field`: as the member of an object, among others, or as the
only item of an array. -/
def readRecord? (field : String) (bs : Bytes) : Option String :=
  let found : Option (String × Bytes) :=
    match skipBlanks bs with
    | 0x7B :: r => recordMembers field (bs.length + 1) none r
    | 0x5B :: r =>
      (expectText r).bind fun (s, r) =>
        match skipBlanks r with
        | 0x5D :: t => some (s, t)
        | _ => none
    | _ => none
  found.bind fun (s, r) => if (skipBlanks r).isEmpty then some s else none

end Routing.Json
