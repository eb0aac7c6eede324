import Routing.Toml.Reader

/-!
# TOML documents

A document is a list of sections: the entries in front of the first header, if there are any, and
those under each header. The sections add up to one table: a section belongs into the table, or the
last item of the list, at the path of its header. A table has one header at most.
-/

namespace Routing.Toml

/-- The entries under a header. -/
structure Section where
  /-- The path in the header, or what is left of it. -/
  path : List String
  /-- Whether the section is an item of a list. -/
  isItem : Bool
  /-- The entries. -/
  entries : Entries

/-- A document. -/
structure Document where
  /-- The sections, in the order of the file. -/
  sections : List Section

namespace Section

/-- The section, if it is one: without a header it has at least one entry. -/
def kept (s : Section) : List Section :=
  if s.path.isEmpty && s.entries.isEmpty then [] else [s]

/-- The sections of lines, the first of which go on with a section. -/
def ofLines (s : Section) : List Line → Option (List Section)
  | [] => some s.kept
  | .header path isItem :: ls => (ofLines ⟨path, isItem, []⟩ ls).map (s.kept ++ ·)
  | .entry path v :: ls =>
    match addEntry v path s.entries with
    | none => none
    | some es => ofLines { s with entries := es } ls

/-- The section below a key, if its path starts with it. -/
def below? (k : String) (s : Section) : Option Section :=
  match s.path with
  | [] => none
  | j :: js => if j = k then some { s with path := js } else none

/-- Whether the path of a section starts with a key. -/
def isBelow (k : String) (s : Section) : Bool :=
  s.path.head? = some k

/-- A bound for the steps that adding up sections takes. -/
def weight (ss : List Section) : Nat :=
  ss.foldr (fun s n => s.path.length + 1 + n) 0

/-- The sections up to the next item of the list that they belong to, and those from there on. -/
def untilItem (ss : List Section) : List Section × List Section :=
  ss.span fun s => !(s.path.isEmpty && s.isItem)

/-- The table that sections add up to. `isSeen` tells whether the header of the table itself has
come. -/
def addUp : Nat → Bool → List Section → Option Entries
  | 0, _, _ => none
  | _ + 1, _, [] => some []
  | fuel + 1, isSeen, s :: rest =>
    match s.path with
    | [] =>
      if isSeen || s.isItem then none
      else (addUp fuel true rest).map (s.entries ++ ·)
    | k :: ks =>
      let inner := (s :: rest).filterMap (below? k)
      let others := rest.filter fun t => !t.isBelow k
      let value :=
        if ks.isEmpty && s.isItem then (items fuel inner).map Value.list
        else (addUp fuel false inner).map (Value.table .header)
      match value, addUp fuel isSeen others with
      | some v, some es => some ((k, v) :: es)
      | _, _ => none
where
  /-- The items of the list that sections add up to, the first of which starts an item. -/
  items : Nat → List Section → Option (List Value)
    | 0, _ => none
    | _ + 1, [] => some []
    | fuel + 1, s :: rest =>
      let (mine, others) := untilItem rest
      match addUp fuel true mine, items fuel others with
      | some es, some vs => some (.table .header (s.entries ++ es) :: vs)
      | _, _ => none

end Section

namespace Document

/-- The document that a text holds. -/
def ofText? (text : String) : Option Document :=
  match Line.ofText? text with
  | none => none
  | some lines => (Section.ofLines ⟨[], false, []⟩ lines).map Document.mk

/-- The table that the sections add up to. -/
def table? (d : Document) : Option Entries :=
  Section.addUp (Section.weight d.sections + 1) false d.sections

/-- The last key of the header, if there is one section and it is empty. -/
def soleName? (d : Document) : Option String :=
  match d.sections with
  | [s] => if s.entries.isEmpty then s.path.getLast? else none
  | _ => none

end Document

end Routing.Toml
