import Routing.Text.Shapeless
import Routing.Text.Hex

/-!
# Quoted texts

Names and paths stand in messages between double quotes. A quote and a backslash inside are
written with a backslash in front, the usual controls by their letters, and every other character
that has no shape of its own by its number in braces. All else stands for itself.
-/

namespace Routing.Text

/-- The written form of one character between quotes. -/
def quoteChar (c : Char) : List Char :=
  if c = '"' then ['\\', '"']
  else if c = '\\' then ['\\', '\\']
  else if c = '\n' then ['\\', 'n']
  else if c = '\r' then ['\\', 'r']
  else if c = '\t' then ['\\', 't']
  else if c = '\x00' then ['\\', '0']
  else if c.toNat < 0x20 || c.toNat = 0x7F || (0x80 ≤ c.toNat && isShapeless c) then
    ['\\', 'u', '{'] ++ Nat.toDigits 16 c.toNat ++ ['}']
  else [c]

/-- A text between double quotes. -/
def quoted (s : String) : String :=
  String.ofList ('"' :: s.toList.flatMap quoteChar ++ ['"'])

end Routing.Text
