import Mathlib.Data.List.Forall2
import Routing.Proofs.Matcher.Compiled
import Routing.Proofs.Text.Numeral

/-!
# The first route in order

The search of a matcher goes down its forest and gives up the branches that do not lead to a route.
It finds the first of the listed routes that has the method of the request and whose labels accept
its segments one by one, and so the least of the routes that match.

* `search_eq_find?`: searching the forest is searching its listing.
* `hits_iff`: what is searched for is a route that matches.
* `lookup_eq_least`: the least of the routes that match is found, and none if no route matches.
-/

namespace Routing.Matcher

/-- What a label accepts: a literal its own text, an integer placeholder what starts with a digit
and reads as a 64 bit integer, a text placeholder everything. -/
inductive Fits : Label → String → Prop
  | literal {text : String} : Fits ⟨.literal, text⟩ text
  | int {name text : String} {c : Char} {r : List Char} {n : Int} :
    text.toList = c :: r → c.isDigit = true → Text.Numeral.int64? text.toList = some n →
    Fits ⟨.int, name⟩ text
  | string {name text : String} : Fits ⟨.string, name⟩ text

/-- The route `i` matches a request: it has its method, and the labels `ls` of its template accept
the segments of its target one by one. -/
structure Matches (routes : List (Method × String)) (m : Method) (target : String) (i : Nat)
    (ls : List Label) : Prop where
  declared : Declares routes (ls, m, i)
  nonempty : ls ≠ []
  fits : List.Forall₂ Fits ls (Target.segments target)

/-- Whether labels accept segments one by one. -/
def accept : List Label → List Segment → Bool
  | [], [] => true
  | l :: ls, s :: ss => l.accepts s && accept ls ss
  | _, _ => false

/-- Whether a listed route has a method and accepts segments. -/
def hits (m : Method) (ss : List Segment) (e : List Label × Method × Nat) : Bool :=
  m = e.2.1 && accept e.1 ss

/-- What labels bind for segments; of two placeholders of one name the first binds. -/
def bindings : List Label → List Segment → Properties
  | l :: ls, s :: ss => l.bind s (bindings ls ss)
  | _, _ => Properties.empty

/-- What is found with a listed route. -/
def found (ss : List Segment) (e : List Label × Method × Nat) : Nat × Properties :=
  (e.2.2, bindings e.1 ss)

/-! ## Searching the listing -/

theorem route?_eq_find? (m : Method) (es : Endings) :
    Endings.route? m es = (es.find? fun e => m = e.1).map Prod.snd := by
  induction es with
  | nil => rfl
  | cons e r ih =>
    rw [Endings.route?, List.find?_cons]
    by_cases h : m = e.1
    · simp [h]
    · simp [h, ih]

theorem hits_cons (m : Method) (l : Label) (ls : List Label) (x : Method × Nat) (s : Segment)
    (ss : List Segment) :
    hits m (s :: ss) (l :: ls, x) = (l.accepts s && hits m ss (ls, x)) := by
  rw [hits, accept]
  exact Bool.and_left_comm _ _ _

/-- What is found among the endings of a node. -/
theorem find?_endings (m : Method) (l : Label) (es : Endings) (s : Segment) (ss : List Segment) :
    ((es.map fun x => ([l], x)).find? (hits m (s :: ss))).map (found (s :: ss))
      = if l.accepts s ∧ ss = [] then
          (Endings.route? m es).map fun i => (i, l.bind s Properties.empty)
        else none := by
  split
  next h =>
    obtain ⟨hacc, rfl⟩ := h
    have hhits : (hits m [s]) ∘ (fun x => ([l], x)) = fun x : Method × Nat => decide (m = x.1) := by
      funext x
      simp [hits, accept, hacc]
    rw [List.find?_map, hhits, route?_eq_find?, Option.map_map, Option.map_map]
    rfl
  next h =>
    have hnone : (es.map fun x => ([l], x)).find? (hits m (s :: ss)) = none := by
      refine List.find?_eq_none.mpr fun e he hit => h ?_
      obtain ⟨x, -, rfl⟩ := List.mem_map.mp he
      rw [hits_cons, Bool.and_eq_true] at hit
      refine ⟨hit.1, ?_⟩
      cases ss with
      | nil => rfl
      | cons => simp [hits, accept] at hit
    rw [hnone]
    rfl

/-- What is found below a node. -/
theorem find?_children (m : Method) (l : Label) (es : List (List Label × Method × Nat))
    (s : Segment) (ss : List Segment) :
    ((es.map fun e => (l :: e.1, e.2)).find? (hits m (s :: ss))).map (found (s :: ss))
      = if l.accepts s then
          ((es.find? (hits m ss)).map (found ss)).map fun r => (r.1, l.bind s r.2)
        else none := by
  have hhits : (hits m (s :: ss)) ∘ (fun e => (l :: e.1, e.2))
      = fun e : List Label × Method × Nat => l.accepts s && hits m ss e :=
    funext fun e => hits_cons m l e.1 e.2 s ss
  rw [List.find?_map, hhits]
  cases hacc : l.accepts s with
  | true =>
    simp only [Bool.true_and, if_true, Option.map_map]
    rfl
  | false => simp

theorem find?_hits_nil (m : Method) (t : Forest Label Endings) :
    t.listing.find? (hits m []) = none := by
  refine List.find?_eq_none.mpr ?_
  rintro ⟨p, x⟩ he hit
  obtain ⟨l, -, ls, rfl⟩ := Forest.exists_cons_of_mem_paths (Forest.mem_paths_of_mem_listing he)
  simp [hits, accept] at hit

/-- **Searching the forest is searching its listing.** -/
theorem search_eq_find? (m : Method) (t : Forest Label Endings) (s : Segment)
    (ss : List Segment) :
    search m t s ss = (t.listing.find? (hits m (s :: ss))).map (found (s :: ss)) := by
  induction t generalizing s ss with
  | nil => rfl
  | node l es cs rs ihc ihs =>
    -- of the node the search tries the endings or the children, by whether a segment is left
    rw [Forest.listing, List.find?_append, List.find?_append, Option.map_or, Option.map_or,
      find?_endings, find?_children, ← ihs, search.eq_def]
    cases hacc : l.accepts s with
    | false => simp [hacc]
    | true =>
      cases ss with
      | nil =>
        rw [find?_hits_nil]
        cases hr : Endings.route? m es <;> simp [hacc, hr]
      | cons s' ss' =>
        rw [← ihc]
        cases hr : search m cs s' ss' <;> simp [hacc, hr]

theorem lookup_eq_find? (t : Matcher) (m : Method) (target : String) :
    t.lookup m target
      = (t.roots.listing.find? (hits m ((Target.segments target).map Segment.mk))).map
          (found ((Target.segments target).map Segment.mk)) := by
  unfold lookup
  cases (Target.segments target).map Segment.mk with
  | nil =>
    rw [find?_hits_nil]
    rfl
  | cons s ss => exact search_eq_find? m t.roots s ss

/-! ## What is found -/

/-- A segment has an integer reading if it starts with a digit and reads as an integer. -/
theorem number?_eq_some_iff {text : String} {n : Int} :
    (Segment.mk text).number? = some n
      ↔ ∃ c r, text.toList = c :: r ∧ c.isDigit = true ∧
          Text.Numeral.int64? text.toList = some n := by
  unfold Segment.number?
  cases hs : text.toList with
  | nil => simp
  | cons c r => simp [Text.Numeral.isSome_digit?]

theorem accepts_iff {l : Label} {text : String} : l.accepts ⟨text⟩ = true ↔ Fits l text := by
  obtain ⟨kind, id⟩ := l
  cases kind with
  | literal =>
    refine decide_eq_true_iff.trans ⟨?_, ?_⟩
    · rintro rfl
      exact .literal
    · rintro ⟨⟩
      rfl
  | int =>
    refine Option.isSome_iff_exists.trans ⟨?_, ?_⟩
    · rintro ⟨n, hn⟩
      obtain ⟨c, r, hs, hc, hread⟩ := number?_eq_some_iff.mp hn
      exact .int hs hc hread
    · intro h
      cases h with
      | int hs hc hread => exact ⟨_, number?_eq_some_iff.mpr ⟨_, _, hs, hc, hread⟩⟩
  | string => exact ⟨fun _ => .string, fun _ => rfl⟩

theorem accept_iff {ls : List Label} {ss : List String} :
    accept ls (ss.map Segment.mk) = true ↔ List.Forall₂ Fits ls ss := by
  induction ls generalizing ss with
  | nil => cases ss <;> simp [accept, List.forall₂_nil_left_iff]
  | cons l ls ih =>
    cases ss with
    | nil => simp [accept, List.forall₂_nil_right_iff]
    | cons s ss =>
      rw [List.map_cons, accept, Bool.and_eq_true, accepts_iff, ih, List.forall₂_cons]

/-- **What is searched for is a route that matches.** -/
theorem hits_iff {routes : List (Method × String)} {t : Matcher} (h : build routes = .ok t)
    {m : Method} {target : String} {e : List Label × Method × Nat} :
    e ∈ t.roots.listing ∧ hits m ((Target.segments target).map Segment.mk) e = true
      ↔ e.2.1 = m ∧ Matches routes m target e.2.2 e.1 := by
  obtain ⟨ls, m', i⟩ := e
  unfold hits
  rw [Bool.and_eq_true, decide_eq_true_iff, accept_iff]
  constructor
  · rintro ⟨he, rfl, hfits⟩
    refine ⟨rfl, (mem_listing_build h).mp he, ?_, hfits⟩
    rintro rfl
    exact Forest.nil_not_mem_paths _ (Forest.mem_paths_of_mem_listing he)
  · rintro ⟨rfl, hm⟩
    exact ⟨(mem_listing_build h).mpr hm.declared, rfl, hm.fits⟩

/-- What is found first in an ascending list comes before all else that might be found. -/
theorem eq_or_lt_of_find?_eq_some {α : Type} {r : α → α → Prop} {l : List α} {q : α → Bool}
    (hl : l.Pairwise r) {d e : α} (hd : l.find? q = some d) (he : e ∈ l) (hq : q e = true) :
    e = d ∨ r d e := by
  obtain ⟨-, as, bs, rfl, has⟩ := List.find?_eq_some_iff_append.mp hd
  rcases List.mem_append.mp he with he | he
  · exact absurd hq (by simpa using has e he)
  · rcases List.mem_cons.mp he with rfl | he
    · exact Or.inl rfl
    · exact Or.inr ((List.pairwise_cons.mp (List.pairwise_append.mp hl).2.1).1 e he)

variable {routes : List (Method × String)} {t : Matcher} {m : Method} {target : String}

/-- **What is found matches**, binds what its labels bind, and comes before all else that
matches. -/
theorem lookup_eq_some (h : build routes = .ok t) {i : Nat} {p : Properties}
    (hl : t.lookup m target = some (i, p)) :
    ∃ ls, Matches routes m target i ls ∧
      p = bindings ls ((Target.segments target).map Segment.mk) ∧
      ∀ j ks, Matches routes m target j ks → place routes ls i ≤ place routes ks j := by
  rw [lookup_eq_find?, Option.map_eq_some_iff] at hl
  obtain ⟨⟨ls, m', i'⟩, hd, hfound⟩ := hl
  obtain ⟨rfl, rfl⟩ := Prod.mk.inj hfound
  obtain ⟨rfl, hm⟩ := (hits_iff h).mp ⟨List.mem_of_find?_eq_some hd, List.find?_some hd⟩
  refine ⟨ls, hm, rfl, fun j ks hj => ?_⟩
  obtain ⟨he, hq⟩ := (hits_iff h (e := (ks, m', j))).mpr ⟨rfl, hj⟩
  rcases eq_or_lt_of_find?_eq_some (pairwise_listing_build h) hd he hq with heq | hlt
  · obtain ⟨rfl, hrest⟩ := Prod.mk.inj heq
    obtain ⟨-, rfl⟩ := Prod.mk.inj hrest
    exact le_refl _
  · exact le_of_lt hlt

theorem lookup_eq_none (h : build routes = .ok t) :
    t.lookup m target = none ↔ ∀ i ls, ¬ Matches routes m target i ls := by
  rw [lookup_eq_find?, Option.map_eq_none_iff, List.find?_eq_none]
  constructor
  · intro hnone i ls hm
    obtain ⟨he, hq⟩ := (hits_iff h (e := (ls, m, i))).mpr ⟨rfl, hm⟩
    exact hnone _ he hq
  · intro hnone e he hq
    exact hnone _ _ ((hits_iff h).mp ⟨he, hq⟩).2

/-- **The least of the routes that match is found.** Nothing is found iff no route matches, and
else the route that comes first when templates are compared level by level, by the ranks of their
labels and then by the first route that declares the path down to there, and after that by index. -/
theorem lookup_eq_least (h : build routes = .ok t) (m : Method) (target : String) :
    (t.lookup m target = none ↔ ∀ i ls, ¬ Matches routes m target i ls) ∧
      ∀ i, (∃ p, t.lookup m target = some (i, p)) ↔
        ∃ ls, Matches routes m target i ls ∧
          ∀ j ks, Matches routes m target j ks → place routes ls i ≤ place routes ks j := by
  refine ⟨lookup_eq_none h, fun i => ⟨?_, ?_⟩⟩
  · rintro ⟨p, hp⟩
    obtain ⟨ls, hm, -, hleast⟩ := lookup_eq_some h hp
    exact ⟨ls, hm, hleast⟩
  · rintro ⟨ls, hm, hleast⟩
    cases hl : t.lookup m target with
    | none => exact absurd hm ((lookup_eq_none h).mp hl i ls)
    | some r =>
      obtain ⟨ks, hm', -, hleast'⟩ := lookup_eq_some h hl
      have heq := le_antisymm (hleast' i ls hm) (hleast r.1 ks hm')
      have hi : r.1 = i := congrArg (fun x => (ofLex x).2) heq
      exact ⟨r.2, by rw [← hi]⟩

/-- A literal that leads nowhere is given up for an integer, which comes before a text. -/
theorem lookup_eq_least_backtracking :
    let routes : List (Method × String) :=
      [(.get, "<string:a>/x"), (.get, "/<int:n>/x/"), (.get, "1/y")]
    ∃ t, build routes = .ok t ∧ ∃ ls, Matches routes .get "/1//x?q" 1 ls ∧
      ∀ j ks, Matches routes .get "/1//x?q" j ks → place routes ls 1 ≤ place routes ks j := by
  intro routes
  let t : Matcher := (build routes).toOption.getD ⟨.nil⟩
  have hbuild : build routes = .ok t := rfl
  exact ⟨t, hbuild, ((lookup_eq_least hbuild .get "/1//x?q").2 1).mp ⟨_, rfl⟩⟩

end Routing.Matcher
