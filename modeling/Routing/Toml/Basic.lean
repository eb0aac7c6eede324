import Routing.Float64

/-!
# TOML values

The values of configuration files. A table remembers the form it is written in, since not every form
can stand for everything, and it keeps its entries in the order of the file, where a key may come
more than once: it is for the reader of a key to refuse that.

* `Value.fields?`: the fields of a record, which may be a table, a list in the order of the fields,
  or a date, which has none of them.
-/

namespace Routing.Toml

/-- How a table is written. -/
inductive Form where
  /-- Under a header. -/
  | header
  /-- In braces. -/
  | braces
  /-- By keys with points in them. -/
  | points
deriving DecidableEq

/-- A value. -/
inductive Value where
  /-- A text. -/
  | text (s : String)
  /-- A whole number of 64 bits. -/
  | integer (n : Int)
  /-- A number with a fraction or an exponent. -/
  | float (x : Float64)
  /-- A truth value. -/
  | boolean (b : Bool)
  /-- A date, a time, or both, which are not looked into. -/
  | moment
  /-- A list of values. -/
  | list (items : List Value)
  /-- A table. -/
  | table (form : Form) (entries : List (String × Value))
deriving Inhabited

/-- Keys with their values, in the order of the file. -/
abbrev Entries := List (String × Value)

/-- The value of a key that comes at most once, if it comes; fails if the key comes again. -/
def single? (k : String) (es : Entries) : Option (Option Value) :=
  match es.filter fun e => e.1 = k with
  | [] => some none
  | [e] => some (some e.2)
  | _ => none

/-- The values of keys that come at most once each. -/
def singles? (es : Entries) : List String → Option (List (Option Value))
  | [] => some []
  | k :: ks =>
    match single? k es, singles? es ks with
    | some v, some vs => some (v :: vs)
    | _, _ => none

/-- The items of a list in as many places, the last ones empty if there are fewer; fails if there
are more. -/
def places? : List Value → List String → Option (List (Option Value))
  | [], ks => some (ks.map fun _ => none)
  | _ :: _, [] => none
  | v :: vs, _ :: ks => (places? vs ks).map (some v :: ·)

/-- The fields of a record, in the order of their names. -/
def Value.fields? (names : List String) : Value → Option (List (Option Value))
  | .table _ es => singles? es names
  | .list items => places? items names
  | .moment => some (names.map fun _ => none)
  | _ => none

end Routing.Toml
