import Routing.Text.Split

/-!
# Variables in texts

A text refers to a variable of the environment by its name between `$ENV` and braces: the name of
letters, digits and underscores, with points after the first character. References to variables
that are set stand for their values, and all others for themselves.

* `expand_of_names_nil`: a text without references stands for itself.
* `expand_of_unset`: so does every text where no variable is set.
-/

namespace Routing.Text.Variables

/-- What stands before the name of a variable. -/
def opening : List Char := ['$', 'E', 'N', 'V', '\x7b']

/-- What stands after the name of a variable. -/
def closing : Char := '\x7d'

/-- Whether the name of a variable may start with a character. Names are ASCII, as are those of all
variables that are set. -/
def isNameStart (c : Char) : Bool :=
  c.isAlphanum || c = '_'

/-- Whether the name of a variable may go on with a character. -/
def isNamePart (c : Char) : Bool :=
  isNameStart c || c = '.'

/-- The name that a text starts with, if it is closed. -/
def name? (s : List Char) : Option (List Char) :=
  match s.takeWhile isNamePart, s.dropWhile isNamePart with
  | c :: r, x :: _ => if isNameStart c && x = closing then some (c :: r) else none
  | _, _ => none

/-- The names of the variables that a text refers to, in their order. -/
def names : List Char → List (List Char)
  | [] => []
  | c :: r => ((afterFront? opening (c :: r)).bind name?).toList ++ names r

/-- The reference to a variable. -/
def reference (name : List Char) : List Char :=
  opening ++ name ++ [closing]

/-- The text without its first `n` characters, with `value` in place of each `pattern` after them,
the leftmost first. -/
def substitute (pattern value : List Char) : Nat → List Char → List Char
  | _, [] => []
  | n + 1, _ :: r => substitute pattern value n r
  | 0, c :: r =>
    if pattern.isPrefixOf (c :: r) then value ++ substitute pattern value (pattern.length - 1) r
    else c :: substitute pattern value 0 r

/-- The text with the value of a variable, if it is set, in place of each reference to it. -/
def resolve (value? : String → Option String) (s : List Char) (name : List Char) : List Char :=
  match value? (String.ofList name) with
  | some value => substitute (reference name) value.toList 0 s
  | none => s

/-- The text with values in place of references to the variables that are set. -/
def expand (value? : String → Option String) (s : String) : String :=
  String.ofList ((names s.toList).foldl (resolve value?) s.toList)

/-! ## Laws -/

theorem expand_of_names_nil {s : String} (h : names s.toList = [])
    (value? : String → Option String) : expand value? s = s := by
  simp [expand, h]

theorem foldl_resolve_of_unset {value? : String → Option String} (h : ∀ n, value? n = none)
    (ns : List (List Char)) (s : List Char) : ns.foldl (resolve value?) s = s := by
  induction ns with
  | nil => rfl
  | cons n ns ih => simpa [resolve, h] using ih

theorem expand_of_unset {value? : String → Option String} (h : ∀ n, value? n = none)
    (s : String) : expand value? s = s := by
  simp [expand, foldl_resolve_of_unset h]

end Routing.Text.Variables
