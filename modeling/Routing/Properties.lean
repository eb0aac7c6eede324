import Routing.Dict
import Routing.Error
import Routing.Float64
import Routing.Text.Utf8

/-!
# Properties

The values that the placeholders of a template are bound to, by name. Each value has a kind, and a
value is read as its own kind only.
-/

namespace Routing

/-- What a property can be. -/
inductive Kind where
  /-- A 64 bit integer. -/
  | int
  /-- A text. -/
  | string
  /-- Raw content. -/
  | bytes
  /-- A truth value. -/
  | bool
  /-- A double precision number. -/
  | float
deriving DecidableEq

/-- The name of a kind. -/
def Kind.name : Kind → String
  | .int => "int"
  | .string => "string"
  | .bytes => "bytes"
  | .bool => "bool"
  | .float => "float"

/-- The value of a property. -/
inductive Value where
  /-- A 64 bit integer. -/
  | int (n : Int)
  /-- A text. -/
  | string (s : String)
  /-- Raw content. -/
  | bytes (bs : Bytes)
  /-- A truth value. -/
  | bool (b : Bool)
  /-- A double precision number. -/
  | float (x : Float64)
deriving DecidableEq

namespace Value

/-- The kind of a value. -/
def kind : Value → Kind
  | .int _ => .int
  | .string _ => .string
  | .bytes _ => .bytes
  | .bool _ => .bool
  | .float _ => .float

/-- Equality of values, numeric on double precision numbers. -/
def numericEq : Value → Value → Bool
  | .float x, .float y => x.numericEq y
  | v, w => v = w

end Value

/-- Values by name. -/
abbrev Properties := Dict Value

namespace Properties

/-- No property. -/
def empty : Properties := Dict.empty

/-- Binds a name, in place of an earlier binding. -/
def insert (p : Properties) (name : String) (v : Value) : Properties :=
  Dict.set p name v

/-- The properties of a list, the last one of each name. -/
def collect (items : List (String × Value)) : Properties :=
  Dict.ofList items

/-- The value of a name, if it is of the kind asked for; `none` if the name is unbound. -/
def value (p : Properties) (kind : Kind) (name : String) : Except PropertyError (Option Value) :=
  match Dict.get? p name with
  | none => .ok none
  | some v =>
    if v.kind = kind then .ok (some v) else .error ⟨name, kind.name, v.kind.name⟩

/-- The value of a name, if it is of the kind of the default; the default if the name is
unbound. -/
def valueOr (p : Properties) (name : String) (default : Value) : Except PropertyError Value :=
  match p.value default.kind name with
  | .ok v => .ok (v.getD default)
  | .error e => .error e

/-- The bindings of both; of a name bound in both, that of the first. -/
def merge (p q : Properties) : Properties :=
  q.entries.foldl (fun r e => if Dict.contains r e.1 then r else Dict.set r e.1 e.2) p

/-- Whether the same names are bound, to values that are equal. -/
def numericEq (p q : Properties) : Bool :=
  Dict.size p == Dict.size q && p.entries.all fun e =>
    match Dict.get? q e.1 with
    | some v => e.2.numericEq v
    | none => false

end Properties

end Routing
