import Routing.Forest
import Routing.Http.Method
import Routing.Http.Target
import Routing.Log
import Routing.Segment

/-!
# The route matcher

A matcher is built once from a list of routes, each a method and a template, and finds the route of
a request and the values of its placeholders. Templates are kept as a forest keyed by labels; on
every level literals come before integer placeholders and these before text placeholders, each kind
in the order of declaration. A branch that does not lead to a route of the method is given up for
the next.
-/

namespace Routing

/-- The routes that end at a node: method and index in the list. -/
abbrev Endings := List (Method × Nat)

/-- The index of the first route of a method. -/
def Endings.route? (m : Method) : Endings → Option Nat
  | [] => none
  | e :: r => if m = e.1 then some e.2 else route? m r

/-- A compiled list of routes. -/
structure Matcher where
  /-- The templates, keyed by their labels, in the order of search. -/
  roots : Forest Label Endings

namespace Matcher

/-- The labels of the segments of the template `uri`. -/
def labelsOf (uri : String) : List String → Except BuildError (List Label)
  | [] => .ok []
  | s :: r =>
    match Label.parse uri s with
    | .error e => .error e
    | .ok l =>
      match labelsOf uri r with
      | .error e => .error e
      | .ok ls => .ok (l :: ls)

/-- The labels of a template, slashes at its ends aside; none if nothing else is there. -/
def templateLabels (uri : String) : Except BuildError (List Label) :=
  let trimmed := Target.trimSlashes uri
  if trimmed = "" then .ok [] else labelsOf uri (Text.splitText '/' trimmed)

/-- The forest with one more route. -/
def addRoute (index : Nat) (m : Method) (uri : String) (t : Forest Label Endings) :
    Except BuildError (Forest Label Endings) :=
  match templateLabels uri with
  | .error e => .error e
  | .ok [] => .error (.emptyTemplate m.name)
  | .ok (l :: ls) => .ok (t.insert [] (fun es => es ++ [(m, index)]) l ls)

/-- The forest with more routes, indexed from `index` on. -/
def addRoutes (index : Nat) :
    List (Method × String) → Forest Label Endings → Except BuildError (Forest Label Endings)
  | [], t => .ok t
  | r :: rs, t =>
    match addRoute index r.1 r.2 t with
    | .error e => .error e
    | .ok t => addRoutes (index + 1) rs t

/-- The order in which labels are tried. -/
def rank (l : Label) : Nat :=
  l.kind.rank

/-- The matcher of a list of routes; the first faulty template fails it. -/
def build (routes : List (Method × String)) : Except BuildError Matcher :=
  match addRoutes 0 routes .nil with
  | .error e => .error e
  | .ok t => .ok ⟨t.sortByRank rank⟩

/-- The first route of a method along the segments `s :: rest`, with what its placeholders bind.
Of two placeholders of one name the one further to the left binds. -/
def search (m : Method) : Forest Label Endings → Segment → List Segment → Option (Nat × Properties)
  | .nil, _, _ => none
  | .node l es cs ss, s, rest =>
    let here :=
      if l.accepts s then
        match rest with
        | [] => (Endings.route? m es).map fun i => (i, Properties.empty)
        | s' :: rest' => search m cs s' rest'
      else none
    match here with
    | some (i, p) => some (i, l.bind s p)
    | none => search m ss s rest

/-- The index of the route for a method and a target, and the properties bound along the path. -/
def lookup (t : Matcher) (m : Method) (target : String) : Option (Nat × Properties) :=
  match (Target.segments target).map Segment.mk with
  | [] => none
  | s :: rest => search m t.roots s rest

/-- The routes that repeat the method and the template of one before them, up to the first faulty
template. `seen` holds the routes before. -/
def repeated (seen : List (Method × List Label)) :
    List (Method × String) → List (Method × String)
  | [] => []
  | r :: rs =>
    match templateLabels r.2 with
    | .error _ => []
    | .ok [] => []
    | .ok ls =>
      let more := repeated ((r.1, ls) :: seen) rs
      if seen.contains (r.1, ls) then r :: more else more

/-- Tells of the routes that will never be found because they repeat one before them. -/
def warnings (routes : List (Method × String)) : List Log.Record :=
  (repeated [] routes).map fun r =>
    ⟨.warn, "pathway_api::mapper::trie",
      "route " ++ r.1.name ++ " " ++ r.2 ++ " declared twice, the first declaration wins"⟩

end Matcher

end Routing
