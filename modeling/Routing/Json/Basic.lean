import Routing.Dict
import Routing.Float64

/-!
# JSON values

The values that request and response bodies and documentation examples are made of.
-/

namespace Routing

/-- A JSON value. The members of an object are kept in ascending order of their names. -/
inductive Json where
  /-- The null value. -/
  | null
  /-- A truth value. -/
  | bool (b : Bool)
  /-- A whole number. -/
  | int (n : Int)
  /-- A number with a fraction or an exponent, or too large for 64 bits. -/
  | float (x : Float64)
  /-- A text. -/
  | text (s : String)
  /-- A list of values. -/
  | array (items : List Json)
  /-- Named values. -/
  | object (members : List (String × Json))
deriving Inhabited

namespace Json

/-- The object with the given members, the last one of each name. -/
def ofMembers (ms : List (String × Json)) : Json :=
  .object (Dict.ofList ms).entries

/-- The member of an object. -/
def member? (k : String) : Json → Option Json
  | .object ms => Dict.lookup k ms
  | _ => none

end Json

end Routing
