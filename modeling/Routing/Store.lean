import Routing.Forest
import Routing.Http.Method
import Routing.Http.Target
import Routing.Log
import Routing.Text.Quoted

/-!
# The handler store

Handlers are registered under a verb at a path, and a request finds the handler of the longest
registered path in front of its target. What follows the path is the tail, for the handler to
route further. A store may have a base path, outside of which it finds nothing.

Paths are kept as a forest keyed by their segments. On one path the exact verb of the request comes
before the verb for all methods. A handler at the empty path is found by every target that no other
path is in front of, the empty target apart.

* `get?_add`, `get?_remove`: adding and removing change one registration and no other.
-/

namespace Routing

/-- The handlers at one path, by verb; of two entries of a verb the first counts. -/
structure Handlers (H : Type) where
  /-- The registrations. -/
  entries : List (Verb × H)

namespace Handlers

variable {H : Type}

/-- No handler. -/
def none : Handlers H := ⟨[]⟩

/-- Whether there is no handler. -/
def isEmpty (hs : Handlers H) : Bool :=
  hs.entries.isEmpty

/-- The first handler of a verb in a list of registrations. -/
def first? (v : Verb) : List (Verb × H) → Option H
  | [] => Option.none
  | e :: r => if v = e.1 then some e.2 else first? v r

/-- The handler of a verb. -/
def get? (hs : Handlers H) (v : Verb) : Option H :=
  first? v hs.entries

/-- The handlers without that of a verb. -/
def erase (hs : Handlers H) (v : Verb) : Handlers H :=
  ⟨hs.entries.filter fun e => v ≠ e.1⟩

/-- The handlers with that of a verb, in place of an earlier one. -/
def set (hs : Handlers H) (v : Verb) (h : H) : Handlers H :=
  ⟨(v, h) :: (hs.erase v).entries⟩

/-- The handler for a method: that of the method itself, or else that of all methods. -/
def select (hs : Handlers H) (m : Method) : Option H :=
  match hs.get? (.exact m) with
  | some h => some h
  | Option.none => hs.get? .any

@[simp] theorem get?_none (v : Verb) : (none : Handlers H).get? v = Option.none := rfl

theorem first?_filter (v w : Verb) (l : List (Verb × H)) :
    first? w (l.filter fun e => v ≠ e.1) = if w = v then Option.none else first? w l := by
  induction l with
  | nil => simp [first?]
  | cons e r ih =>
    by_cases h : v = e.1
    · subst h
      by_cases hw : w = e.1 <;> simp_all [first?]
    · by_cases hw : w = e.1
      · subst hw
        simp [first?, h, Ne.symm h]
      · simp_all [first?]

@[simp] theorem get?_erase (hs : Handlers H) (v w : Verb) :
    (hs.erase v).get? w = if w = v then Option.none else hs.get? w :=
  first?_filter v w hs.entries

@[simp] theorem get?_set (hs : Handlers H) (v : Verb) (h : H) (w : Verb) :
    (hs.set v h).get? w = if w = v then some h else hs.get? w := by
  by_cases hw : w = v
  · simp [get?, set, first?, hw]
  · have : (hs.set v h).get? w = (hs.erase v).get? w := by simp [get?, set, first?, hw]
    simp [this, hw]

theorem eq_none_of_isEmpty {hs : Handlers H} (h : hs.isEmpty = true) : hs = none := by
  obtain ⟨es⟩ := hs
  simpa [isEmpty, none] using h

theorem isEmpty_set (hs : Handlers H) (v : Verb) (h : H) : (hs.set v h).isEmpty = false := rfl

theorem isEmpty_iff {hs : Handlers H} : hs.isEmpty = true ↔ ∀ v, hs.get? v = Option.none := by
  constructor
  · intro h v
    rw [eq_none_of_isEmpty h, get?_none]
  · intro h
    obtain ⟨es⟩ := hs
    cases es with
    | nil => rfl
    | cons e r =>
      have := h e.1
      simp [get?, first?] at this

end Handlers

/-- Handlers by path and verb, below a base path. -/
structure Store (H : Type) where
  /-- The base path, without slashes at its ends. -/
  base : String
  /-- The handlers, keyed by the segments of their paths. -/
  nodes : Forest String (Handlers H)
  /-- No two siblings have one segment. -/
  distinct : nodes.Distinct

namespace Store

variable {H : Type}

/-- The store without handlers below a base path. -/
def withBase (base : String) : Store H :=
  ⟨Target.trimSlashes base, .nil, trivial⟩

/-- The first segment of a path and those after it, slashes at its ends aside. -/
def pathKey (path : String) : String × List String :=
  match Text.splitText '/' (Target.trimSlashes path) with
  | [] => ("", [])
  | k :: ks => (k, ks)

/-- Whether there is no handler. -/
def isEmpty (s : Store H) : Bool :=
  s.nodes.isEmpty

/-- The store without its handlers. -/
def clear (s : Store H) : Store H :=
  ⟨s.base, .nil, trivial⟩

/-- Registers a handler, in place of an earlier one of the same verb and path. -/
def add (s : Store H) (v : Verb) (path : String) (h : H) : Store H :=
  let key := pathKey path
  ⟨s.base, s.nodes.insert Handlers.none (fun hs => hs.set v h) key.1 key.2,
    Forest.distinct_insert _ _ _ _ s.distinct⟩

/-- The handler registered under a verb at a path. -/
def get? (s : Store H) (v : Verb) (path : String) : Option H :=
  let key := pathKey path
  (s.nodes.valueD Handlers.none key.1 key.2).get? v

/-- Takes the handler of a verb and a path out of the store. -/
def remove (s : Store H) (v : Verb) (path : String) : Option H × Store H :=
  let key := pathKey path
  (s.get? v path,
    ⟨s.base, s.nodes.erase Handlers.isEmpty (fun hs => hs.erase v) key.1 key.2,
      Forest.distinct_erase _ _ _ _ s.distinct⟩)

/-- What follows the base path in a target, which must end there or at the end of a segment; slashes
in front of the base path do not count. -/
def belowBase (base : String) (target : List Char) : Option (List Char) :=
  if base = "" then some target
  else
    match Text.afterFront? base.toList (Text.trimStart Target.isSlash target) with
    | none => none
    | some [] => some []
    | some (c :: r) => if Target.endsSegment c then some (c :: r) else none

/-- A text without the slash in front of it. -/
def dropSlash : List Char → List Char
  | '/' :: r => r
  | s => s

/-- The handler of the deepest node along the segments that has one for the method, and the
segments after the node. An empty segment ends the search. -/
def walk (m : Method) : List String → Forest String (Handlers H) → Option (List String × H)
  | [], _ => none
  | seg :: rest, t =>
    if seg = "" then none
    else
      match t.root? seg with
      | none => none
      | some (hs, cs) =>
        match walk m rest cs with
        | some found => some found
        | none => (hs.select m).map fun h => (rest, h)

/-- The text of the segments that were not matched, and of what follows the path. -/
def tailText (segments : List String) (suffix : List Char) : String :=
  String.ofList (segments.flatMap (fun s => '/' :: s.toList) ++ suffix)

/-- The handler for a method and a target, and the tail of the target. -/
def lookup (s : Store H) (m : Method) (target : String) : Option (String × H) :=
  match belowBase s.base target.toList with
  | none => none
  | some rest =>
    let path := dropSlash rest
    let segments := (Text.split '/' (Target.pathChars path)).map String.ofList
    match walk m segments s.nodes with
    | some (unmatched, h) => some (tailText unmatched (Target.suffixChars path), h)
    | none =>
      if path.isEmpty then none
      else
        match s.nodes.root? "" with
        | none => none
        | some (hs, _) => (hs.select m).map fun h => (String.ofList rest, h)

/-! ## Laws -/

theorem get?_add (s : Store H) (v : Verb) (path : String) (h : H) (w : Verb) (q : String) :
    (s.add v path h).get? w q
      = if w = v ∧ pathKey q = pathKey path then some h else s.get? w q := by
  unfold get? add
  simp only [Forest.valueD_insert]
  by_cases hq : pathKey q = pathKey path
  · by_cases hw : w = v <;> simp [hq, hw]
  · have : ¬((pathKey q).1 = (pathKey path).1 ∧ (pathKey q).2 = (pathKey path).2) :=
      fun e => hq (Prod.ext e.1 e.2)
    simp [hq, this]

theorem get?_remove (s : Store H) (v : Verb) (path : String) (w : Verb) (q : String) :
    (s.remove v path).2.get? w q
      = if w = v ∧ pathKey q = pathKey path then none else s.get? w q := by
  unfold get? remove
  simp only [Forest.valueD_erase (f := fun hs => hs.erase v)
    (fun _ => Handlers.eq_none_of_isEmpty) rfl s.distinct]
  by_cases hq : pathKey q = pathKey path
  · by_cases hw : w = v <;> simp [hq, hw]
  · have : ¬((pathKey q).1 = (pathKey path).1 ∧ (pathKey q).2 = (pathKey path).2) :=
      fun e => hq (Prod.ext e.1 e.2)
    simp [hq, this]

/-! ## Texts -/

/-- The component that tells of registrations. -/
def origin : String := "pathway_api::handler_store"

/-- Tells that a handler was registered. -/
def addRecord (v : Verb) (path : String) : Log.Record :=
  ⟨.debug, origin, "handler store: add " ++ v.text ++ " /" ++ Target.trimSlashes path⟩

/-- Tells that a handler was taken out. -/
def removeRecord (v : Verb) (path : String) : Log.Record :=
  ⟨.debug, origin, "handler store: removed " ++ v.text ++ " /" ++ Target.trimSlashes path⟩

/-- The base path and the first segments of the registered paths, for a reader. -/
def describe (s : Store H) : String :=
  "HandlerStore \x7b base_path: " ++ Text.quoted s.base ++ ", roots: ["
    ++ ", ".intercalate (s.nodes.keys.map Text.quoted) ++ "] \x7d"

end Store

end Routing
