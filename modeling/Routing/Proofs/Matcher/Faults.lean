import Routing.Matcher

/-!
# Faulty routes

Routes are looked at in the order of declaration, and the segments of their templates from the left
to the right. Building stops at the first fault, whatever has been added before. A route is faulty
if there is nothing between the slashes at the ends of its template, or if a segment between slashes
is not a label; then the first such segment is reported, in the template as it was declared.

* `labelsOf_eq_error_iff`: the fault of a template.
* `addRoute_eq_error_iff`: the fault of a route.
* `build_eq_error_iff`: the fault of a list of routes.
* `exists_build_error_iff`: which lists are refused.
-/

namespace Routing.Matcher

section First

variable {α ε : Type} {Fault : α → ε → Prop} {l : List α} {a : α} {e : ε}

/-- The fault of the first faulty element of a list. -/
def FirstFault (Fault : α → ε → Prop) (l : List α) (e : ε) : Prop :=
  ∃ before a after, l = before ++ a :: after ∧ (∀ b ∈ before, ∀ e', ¬ Fault b e') ∧ Fault a e

theorem not_firstFault_nil : ¬ FirstFault Fault [] e := by
  rintro ⟨before, a, after, h, -⟩
  cases before <;> cases h

/-- The fault of an element, or if it has none the first behind it. -/
theorem firstFault_cons_iff :
    FirstFault Fault (a :: l) e ↔ Fault a e ∨ (∀ e', ¬ Fault a e') ∧ FirstFault Fault l e := by
  constructor
  · rintro ⟨_ | ⟨b, before⟩, a', after, h, hbefore, hfault⟩
    · cases h
      exact Or.inl hfault
    · obtain ⟨rfl, hl⟩ := List.cons.inj h
      obtain ⟨hb, hrest⟩ := List.forall_mem_cons.mp hbefore
      exact Or.inr ⟨hb, before, a', after, hl, hrest, hfault⟩
  · rintro (hfault | ⟨ha, before, a', after, rfl, hbefore, hfault⟩)
    · exact ⟨[], a, l, rfl, fun _ hb => absurd hb List.not_mem_nil, hfault⟩
    · exact ⟨a :: before, a', after, rfl, List.forall_mem_cons.mpr ⟨ha, hbefore⟩, hfault⟩

/-- A list has one first fault, if its elements have one fault each. -/
theorem FirstFault.unique {e' : ε} (hfault : ∀ a e e', Fault a e → Fault a e' → e = e')
    (h : FirstFault Fault l e) (h' : FirstFault Fault l e') : e = e' := by
  induction l with
  | nil => exact absurd h not_firstFault_nil
  | cons a l ih =>
    rw [firstFault_cons_iff] at h h'
    rcases h with h | ⟨hnone, h⟩ <;> rcases h' with h' | ⟨hnone', h'⟩
    · exact hfault a e e' h h'
    · exact absurd h (hnone' e)
    · exact absurd h' (hnone e')
    · exact ih h h'

/-- A list has a first fault if one of its elements is faulty. -/
theorem exists_firstFault_iff : (∃ e, FirstFault Fault l e) ↔ ∃ a ∈ l, ∃ e, Fault a e := by
  constructor
  · rintro ⟨e, before, a, after, rfl, -, hfault⟩
    exact ⟨a, List.mem_append_right _ List.mem_cons_self, e, hfault⟩
  · rintro ⟨a, ha, hfault⟩
    induction l with
    | nil => exact absurd ha List.not_mem_nil
    | cons b l ih =>
      by_cases hb : ∃ e, Fault b e
      · obtain ⟨e, he⟩ := hb
        exact ⟨e, firstFault_cons_iff.mpr (Or.inl he)⟩
      · have hne : a ≠ b := fun hab => hb (hab ▸ hfault)
        obtain ⟨e, he⟩ := ih ((List.mem_cons.mp ha).resolve_left hne)
        exact ⟨e, firstFault_cons_iff.mpr (Or.inr ⟨not_exists.mp hb, he⟩)⟩

end First

/-- A segment of the template `uri` is not a label. -/
inductive SegmentFault (uri : String) : String → BuildError → Prop
  | malformed {s : String} {reason : Malformation} : Label.ofChars s.toList = .error reason →
    SegmentFault uri s (.malformedTemplate uri s reason)

/-- What is wrong with a route: there is nothing in its template but slashes, or its first segment
that is not a label. -/
inductive RouteFault : Method × String → BuildError → Prop
  | empty {r : Method × String} : Target.trimSlashes r.2 = "" →
    RouteFault r (.emptyTemplate r.1.name)
  | segment {r : Method × String} {e : BuildError} : Target.trimSlashes r.2 ≠ "" →
    FirstFault (SegmentFault r.2) (Text.splitText '/' (Target.trimSlashes r.2)) e → RouteFault r e

variable {uri s : String} {e : BuildError} {r : Method × String}

/-! ## Templates -/

theorem parse_eq_error_iff : Label.parse uri s = .error e ↔ SegmentFault uri s e := by
  unfold Label.parse
  constructor
  · intro h
    split at h
    next => cases h
    next reason hreason =>
      cases h
      exact .malformed hreason
  · rintro ⟨hreason⟩
    rw [hreason]

/-- **The fault of a template** is that of its first segment that is not a label. -/
theorem labelsOf_eq_error_iff {ss : List String} :
    labelsOf uri ss = .error e ↔ FirstFault (SegmentFault uri) ss e := by
  induction ss with
  | nil => exact ⟨nofun, fun h => absurd h not_firstFault_nil⟩
  | cons s ss ih =>
    rw [firstFault_cons_iff, ← ih]
    simp only [← parse_eq_error_iff, labelsOf]
    cases Label.parse uri s with
    | error e' => simp
    | ok l => cases labelsOf uri ss <;> simp

theorem labelsOf_ne_nil {ss : List String} (h : ss ≠ []) : labelsOf uri ss ≠ .ok [] := by
  cases ss with
  | nil => exact absurd rfl h
  | cons s ss =>
    unfold labelsOf
    split
    · exact nofun
    · split <;> exact nofun

theorem templateLabels_eq_error_iff :
    templateLabels uri = .error e ↔ Target.trimSlashes uri ≠ "" ∧
      FirstFault (SegmentFault uri) (Text.splitText '/' (Target.trimSlashes uri)) e := by
  rw [← labelsOf_eq_error_iff]
  unfold templateLabels
  by_cases h : Target.trimSlashes uri = "" <;> simp [h]

theorem templateLabels_eq_nil_iff : templateLabels uri = .ok [] ↔ Target.trimSlashes uri = "" := by
  unfold templateLabels
  by_cases h : Target.trimSlashes uri = ""
  · simp [h]
  · simp [h, labelsOf_ne_nil (Text.splitText_ne_nil '/' _)]

/-! ## Routes -/

/-- **The fault of a route** fails it, whatever has been added before. -/
theorem addRoute_eq_error_iff (index : Nat) (t : Forest Label Endings) :
    addRoute index r.1 r.2 t = .error e ↔ RouteFault r e := by
  unfold addRoute
  constructor
  · intro h
    split at h
    next e' he =>
      cases h
      obtain ⟨hne, hfirst⟩ := templateLabels_eq_error_iff.mp he
      exact .segment hne hfirst
    next hnil =>
      cases h
      exact .empty (templateLabels_eq_nil_iff.mp hnil)
    next => cases h
  · rintro (hempty | ⟨hne, hfirst⟩)
    · rw [templateLabels_eq_nil_iff.mpr hempty]
    · rw [templateLabels_eq_error_iff.mpr ⟨hne, hfirst⟩]

theorem addRoutes_eq_error_iff (index : Nat) (t : Forest Label Endings)
    {routes : List (Method × String)} :
    addRoutes index routes t = .error e ↔ FirstFault RouteFault routes e := by
  induction routes generalizing index t with
  | nil => exact ⟨nofun, fun h => absurd h not_firstFault_nil⟩
  | cons r rs ih =>
    rw [firstFault_cons_iff, addRoutes]
    simp only [← addRoute_eq_error_iff index t]
    cases addRoute index r.1 r.2 t with
    | error e' => simp
    | ok t' => simp [ih]

variable {routes : List (Method × String)}

/-- **The fault of a list of routes** is that of the first faulty route. -/
theorem build_eq_error_iff : build routes = .error e ↔ FirstFault RouteFault routes e := by
  rw [← addRoutes_eq_error_iff 0 .nil, build]
  cases addRoutes 0 routes .nil <;> simp

theorem exists_routeFault_iff :
    (∃ e, RouteFault r e) ↔ Target.trimSlashes r.2 = "" ∨
      ∃ s ∈ Text.splitText '/' (Target.trimSlashes r.2), ∃ e, Label.parse r.2 s = .error e := by
  have hsegment : (∃ s ∈ Text.splitText '/' (Target.trimSlashes r.2), ∃ e,
        Label.parse r.2 s = .error e) ↔
      ∃ e, FirstFault (SegmentFault r.2) (Text.splitText '/' (Target.trimSlashes r.2)) e := by
    simp only [parse_eq_error_iff, exists_firstFault_iff]
  rw [hsegment]
  constructor
  · rintro ⟨e, hempty | ⟨-, hfirst⟩⟩
    · exact Or.inl hempty
    · exact Or.inr ⟨e, hfirst⟩
  · rintro (hempty | ⟨e, hfirst⟩)
    · exact ⟨_, .empty hempty⟩
    · by_cases h : Target.trimSlashes r.2 = ""
      · exact ⟨_, .empty h⟩
      · exact ⟨e, .segment h hfirst⟩

/-- **Which lists are refused**: those with a route that has nothing but slashes in its template, or
a segment that is not a label. -/
theorem exists_build_error_iff :
    (∃ e, build routes = .error e) ↔ ∃ r ∈ routes, Target.trimSlashes r.2 = "" ∨
      ∃ s ∈ Text.splitText '/' (Target.trimSlashes r.2), ∃ e, Label.parse r.2 s = .error e := by
  simp only [build_eq_error_iff, exists_firstFault_iff, exists_routeFault_iff]

end Routing.Matcher
