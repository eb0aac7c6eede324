import Routing.Error
import Routing.Fault
import Routing.Text.Hex
import Routing.Text.Numeral
import Routing.Text.Split

/-!
# Addresses

An address of a machine is four bytes, and a place to listen at is an address with a port. An
address is written as four decimal numbers with points between them; numbers that stand for more
than a byte, and octal and hexadecimal ones, are read too.
-/

namespace Routing

/-- The address of a machine. -/
structure Host where
  /-- The address as a number. -/
  bits : UInt32
deriving DecidableEq

namespace Host

/-- A byte of an address, counted from the front. -/
def byte (h : Host) (i : Nat) : Nat :=
  h.bits.toNat / Nat.pow 256 (3 - i) % 256

/-- The text of an address. -/
def text (h : Host) : String :=
  ".".intercalate ([0, 1, 2, 3].map fun i => toString (h.byte i))

/-- The address of four bytes. -/
def ofBytes (a b c d : Nat) : Host :=
  ⟨(((a * 256 + b) * 256 + c) * 256 + d).toUInt32⟩

/-- The value of octal digits. -/
def octal? (acc : Nat) : List Char → Option Nat
  | [] => some acc
  | c :: r =>
    match Text.Numeral.digit? c with
    | some d => if d < 8 then octal? (8 * acc + d) r else none
    | none => none

/-- A number below `2 ^ 32`: decimal, octal after a zero, or hexadecimal after a zero and an x. -/
def number? (s : List Char) : Option Nat :=
  let value := match s with
    | '0' :: x :: r =>
      if x = 'x' || x = 'X' then if r.isEmpty then none else Text.Hex.value? r
      else octal? 0 (x :: r)
    | _ => Text.Numeral.natural? (UInt32.size - 1) s
  value.filter fun n => n < UInt32.size

/-- The address with a written form. All numbers but the last stand for a byte each, and the last
one for what is left. -/
def ofText? (s : String) : Option Host :=
  match (Text.split '.' s.toList).mapM number? with
  | some [d] => some ⟨d.toUInt32⟩
  | some [a, d] =>
    if a < 256 && d < Nat.pow 256 3 then some ⟨(a * Nat.pow 256 3 + d).toUInt32⟩ else none
  | some [a, b, d] =>
    if a < 256 && b < 256 && d < Nat.pow 256 2 then
      some ⟨((a * 256 + b) * Nat.pow 256 2 + d).toUInt32⟩
    else none
  | some [a, b, c, d] =>
    if a < 256 && b < 256 && c < 256 && d < 256 then some (ofBytes a b c d) else none
  | _ => none

/-- The machine itself. -/
def loopback : Host := ofBytes 127 0 0 1

end Host

/-- A place to listen at. -/
structure Address where
  /-- The address of the machine. -/
  host : Host
  /-- The port. -/
  port : UInt16
deriving DecidableEq

namespace Address

/-- The text of a place to listen at. -/
def text (a : Address) : String :=
  a.host.text ++ ":" ++ toString a.port.toNat

/-- The place with a written host and a port. A name that is no address is looked up. -/
def resolve (lookup : String → Except String Host) (host : String) (port : UInt16) :
    Except Error Address :=
  let refused (reason : String) : Except Error Address :=
    .error (.argument ("invalid listen address " ++ host ++ ":" ++ toString port.toNat ++ ": "
      ++ reason))
  if host.toList.contains '\x00' then refused Fault.zeroInName.message
  else
    match Host.ofText? host with
    | some h => .ok ⟨h, port⟩
    | none =>
      match lookup host with
      | .ok h => .ok ⟨h, port⟩
      | .error reason => refused reason

end Address

end Routing
