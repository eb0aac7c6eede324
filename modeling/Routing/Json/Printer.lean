import Routing.Json.Basic
import Routing.Text.Hex

/-!
# Printing of JSON

Two layouts: a compact one without any blank, and one with a member or item on each line, indented
by two blanks per level. In texts only quotes, backslashes and characters below `0x20` are written
by escapes.
-/

namespace Routing.Json

/-- The written form of one character of a text. -/
def escapeChar (c : Char) : List Char :=
  if c = '"' then ['\\', '"']
  else if c = '\\' then ['\\', '\\']
  else if c = '\x08' then ['\\', 'b']
  else if c = '\x0c' then ['\\', 'f']
  else if c = '\n' then ['\\', 'n']
  else if c = '\r' then ['\\', 'r']
  else if c = '\t' then ['\\', 't']
  else if c.toNat < 0x20 then
    ['\\', 'u', '0', '0', Text.Hex.digit (c.toNat / 16), Text.Hex.digit (c.toNat % 16)]
  else [c]

/-- The written form of a text. -/
def quoteChars (s : List Char) : List Char :=
  '"' :: s.flatMap escapeChar ++ ['"']

/-- The written form of a value that is no container. -/
def atom : Json → List Char
  | .null => ['n', 'u', 'l', 'l']
  | .bool true => ['t', 'r', 'u', 'e']
  | .bool false => ['f', 'a', 'l', 's', 'e']
  | .int n => (toString n).toList
  | .float x => x.text
  | .text s => quoteChars s.toList
  | .array _ => []
  | .object _ => []

mutual

/-- The value without blanks. -/
def compactChars : Json → List Char
  | .array items => '[' :: compactItems items ++ [']']
  | .object ms => '{' :: compactMembers ms ++ ['}']
  | v => atom v

/-- Values with commas between them. -/
def compactItems : List Json → List Char
  | [] => []
  | [v] => compactChars v
  | v :: w :: r => compactChars v ++ ',' :: compactItems (w :: r)

/-- Members with commas between them. -/
def compactMembers : List (String × Json) → List Char
  | [] => []
  | [m] => compactMember m
  | m :: n :: r => compactMember m ++ ',' :: compactMembers (n :: r)

/-- A name and its value. -/
def compactMember : String × Json → List Char
  | (k, v) => quoteChars k.toList ++ ':' :: compactChars v

end

/-- A line feed and the indentation of a level. -/
def newLine (level : Nat) : List Char :=
  '\n' :: List.replicate (2 * level) ' '

mutual

/-- The value laid out from a level on; empty containers take no line. -/
def prettyChars (level : Nat) : Json → List Char
  | .array [] => ['[', ']']
  | .array items => '[' :: prettyItems (level + 1) items ++ newLine level ++ [']']
  | .object [] => ['{', '}']
  | .object ms => '{' :: prettyMembers (level + 1) ms ++ newLine level ++ ['}']
  | v => atom v

/-- Values on lines of their own. -/
def prettyItems (level : Nat) : List Json → List Char
  | [] => []
  | [v] => newLine level ++ prettyChars level v
  | v :: w :: r => newLine level ++ prettyChars level v ++ ',' :: prettyItems level (w :: r)

/-- Members on lines of their own. -/
def prettyMembers (level : Nat) : List (String × Json) → List Char
  | [] => []
  | [m] => prettyMember level m
  | m :: n :: r => prettyMember level m ++ ',' :: prettyMembers level (n :: r)

/-- A name and its value on a line. -/
def prettyMember (level : Nat) : String × Json → List Char
  | (k, v) => newLine level ++ quoteChars k.toList ++ ':' :: ' ' :: prettyChars level v

end

/-- The compact text of a value. -/
def compact (v : Json) : String :=
  String.ofList v.compactChars

/-- The text of a value over several lines. -/
def pretty (v : Json) : String :=
  String.ofList (v.prettyChars 0)

end Routing.Json
