import Mathlib.Data.List.Dedup
import Routing.Proofs.Matcher.Search

/-!
# What a lookup binds

The properties of a lookup are those of the template that was found, whatever was tried before:
every placeholder name is bound, by its leftmost placeholder. With names that are pairwise different
the request can be read off the template and the properties, but for zeros in front of integers.

* `get?_bindings`: a name is bound by its leftmost placeholder.
* `size_eq_length`: the number of bindings is that of the names.
* `restores_of_binds`: filling a template in gives back the segments.
* `lookup_binds`: all of this of a lookup.
-/

namespace Routing.Matcher

/-- What a placeholder reads off a segment: the integer that it stands for, or the text as it
stands. -/
inductive Reads : Label → String → Value → Prop
  | int {name text : String} {n : Int} : Text.Numeral.int64? text.toList = some n →
    Reads ⟨.int, name⟩ text (.int n)
  | string {name text : String} : Reads ⟨.string, name⟩ text (.string text)

/-- The leftmost placeholder of a name reads a value off its segment. -/
inductive Binds (name : String) : List Label → List String → Value → Prop
  | here {l : Label} {ls : List Label} {s : String} {ss : List String} {v : Value} :
    l.id = name → Reads l s v → Binds name (l :: ls) (s :: ss) v
  | later {l : Label} {ls : List Label} {s : String} {ss : List String} {v : Value} :
    (l.kind ≠ .literal → l.id ≠ name) → Binds name ls ss v → Binds name (l :: ls) (s :: ss) v

/-- The names of the placeholders of a template. -/
def names (ls : List Label) : List String :=
  (ls.filter fun l => l.kind ≠ .literal).map Label.id

/-- The segment that a label stands for with the properties filled in, integers in decimal. -/
def fill (p : Properties) (l : Label) : String :=
  match l.kind, Dict.get? p l.id with
  | .literal, _ => l.id
  | _, some (.int n) => toString n
  | _, some (.string s) => s
  | _, _ => ""

/-- A filled in label gives back a segment, an integer but for zeros in front of it. -/
def Restores (p : Properties) (l : Label) (s : String) : Prop :=
  if l.kind = .int then ∃ k, s.toList = List.replicate k '0' ++ (fill p l).toList else s = fill p l

/-! ## Names -/

theorem names_cons (l : Label) (ls : List Label) :
    names (l :: ls) = if l.kind ≠ .literal then l.id :: names ls else names ls := by
  unfold names
  rw [List.filter_cons]
  split <;> simp_all

theorem exists_reads {l : Label} {s : String} (h : Fits l s) (hl : l.kind ≠ .literal) :
    ∃ v, Reads l s v := by
  cases h with
  | literal => exact absurd rfl hl
  | int _ _ hn => exact ⟨_, .int hn⟩
  | string => exact ⟨_, .string⟩

theorem kind_ne_literal_of_reads {l : Label} {s : String} {v : Value} (h : Reads l s v) :
    l.kind ≠ .literal := by
  cases h <;> simp

theorem binds_cons_iff {name : String} {l : Label} {ls : List Label} {s : String}
    {ss : List String} {v : Value} :
    Binds name (l :: ls) (s :: ss) v
      ↔ (l.id = name ∧ Reads l s v) ∨
        ((l.kind ≠ .literal → l.id ≠ name) ∧ Binds name ls ss v) := by
  constructor
  · intro h
    cases h with
    | here hid hr => exact Or.inl ⟨hid, hr⟩
    | later hid hv => exact Or.inr ⟨hid, hv⟩
  · rintro (⟨hid, hr⟩ | ⟨hid, hv⟩)
    · exact .here hid hr
    · exact .later hid hv

/-- **The names that are bound are those of the placeholders.** -/
theorem exists_binds_iff {name : String} {ls : List Label} {ss : List String}
    (h : List.Forall₂ Fits ls ss) : (∃ v, Binds name ls ss v) ↔ name ∈ names ls := by
  induction h with
  | nil =>
    refine ⟨?_, fun hmem => absurd hmem List.not_mem_nil⟩
    rintro ⟨v, ⟨⟩⟩
  | @cons l s ls ss hfits htail ih =>
    simp only [binds_cons_iff, exists_or, exists_and_left, ih, names_cons]
    by_cases hl : l.kind = .literal
    · have hno : ¬ ∃ v, Reads l s v := fun ⟨v, hr⟩ => kind_ne_literal_of_reads hr hl
      simp [hl, hno]
    · have hreads := exists_reads hfits hl
      simp only [hreads, hl, and_true, ne_eq, not_false_eq_true, forall_const, if_true,
        List.mem_cons, eq_comm (a := name)]
      by_cases hid : l.id = name <;> simp [hid]

/-! ## Bindings -/

theorem get?_insert_eq_some_iff {p : Properties} {id name : String} {v w : Value} :
    Dict.get? (p.insert id w) name = some v
      ↔ (id = name ∧ v = w) ∨ (id ≠ name ∧ Dict.get? p name = some v) := by
  rw [Properties.insert, Dict.get?_set]
  by_cases h : name = id
  · simp [h, eq_comm]
  · simp [h, Ne.symm h]

theorem get?_bind_iff {l : Label} {text : String} {p : Properties} {name : String} {v : Value}
    (h : Fits l text) :
    Dict.get? (l.bind ⟨text⟩ p) name = some v
      ↔ (l.id = name ∧ Reads l text v) ∨
        ((l.kind ≠ .literal → l.id ≠ name) ∧ Dict.get? p name = some v) := by
  cases h with
  | literal =>
    have hno : ¬ Reads ⟨.literal, text⟩ text v := fun hr => kind_ne_literal_of_reads hr rfl
    simp [Label.bind, hno]
  | @int id _ c r n hs hc hn =>
    have hnum : (Segment.mk text).number? = some n := number?_eq_some_iff.mpr ⟨c, r, hs, hc, hn⟩
    have hreads : Reads ⟨.int, id⟩ text v ↔ v = .int n := by
      constructor
      · rintro ⟨hn'⟩
        rw [Option.some.inj (hn.symm.trans hn')]
      · rintro rfl
        exact .int hn
    simp [Label.bind, hnum, get?_insert_eq_some_iff, hreads]
  | @string id _ =>
    have hreads : Reads ⟨.string, id⟩ text v ↔ v = .string text := by
      constructor
      · rintro ⟨⟩
        rfl
      · rintro rfl
        exact .string
    simp [Label.bind, get?_insert_eq_some_iff, hreads]

/-- **A name is bound by its leftmost placeholder.** -/
theorem get?_bindings {name : String} {ls : List Label} {ss : List String} {v : Value}
    (h : List.Forall₂ Fits ls ss) :
    Dict.get? (bindings ls (ss.map Segment.mk)) name = some v ↔ Binds name ls ss v := by
  induction h with
  | nil => exact ⟨fun hv => absurd hv (by simp [bindings, Properties.empty]), fun hv => nomatch hv⟩
  | cons hfits _ ih => rw [List.map_cons, bindings, get?_bind_iff hfits, ih, binds_cons_iff]

/-- The number of bindings is that of the names that are bound. -/
theorem size_eq_length {ν : Type} {d : Dict ν} {l : List String} (hl : l.Nodup)
    (h : ∀ k, (d.get? k).isSome = true ↔ k ∈ l) : d.size = l.length := by
  have hperm : (d.entries.map Prod.fst).Perm l :=
    (List.perm_ext_iff_of_nodup d.nodup_keys hl).mpr fun k =>
      Dict.isSome_get?_iff.symm.trans (h k)
  rw [← hperm.length_eq, List.length_map]
  rfl

/-! ## Filling in -/

theorem restores_of_reads {p : Properties} {l : Label} {s : String} (h : Fits l s)
    (hp : ∀ v, Reads l s v → Dict.get? p l.id = some v) : Restores p l s := by
  cases h with
  | literal => exact rfl
  | @int id _ c r n hs hc hn =>
    have hread := hn
    rw [hs, Text.Numeral.int64?_of_isDigit hc, Option.map_eq_some_iff] at hread
    obtain ⟨N, hN, rfl⟩ := hread
    obtain ⟨k, hk⟩ := Text.Numeral.eq_zeros_append_toDigits hN
    have hfill : (fill p ⟨.int, id⟩).toList = Nat.toDigits 10 N := by
      unfold fill
      rw [hp _ (.int hn)]
      exact Nat.toList_repr
    exact ⟨k, by rw [hs, hk, hfill]⟩
  | @string id _ =>
    have hfill : fill p ⟨.string, id⟩ = s := by
      unfold fill
      rw [hp _ .string]
    exact hfill.symm

/-- **Filling a template in gives back the segments**, if its names are pairwise different. -/
theorem restores_of_binds {p : Properties} {ls : List Label} {ss : List String}
    (h : List.Forall₂ Fits ls ss) (hnames : (names ls).Nodup)
    (hp : ∀ name v, Binds name ls ss v → Dict.get? p name = some v) :
    List.Forall₂ (Restores p) ls ss := by
  induction h with
  | nil => exact .nil
  | @cons l s ls ss hfits htail ih =>
    have hrest : (names ls).Nodup ∧ (l.kind ≠ .literal → l.id ∉ names ls) := by
      rw [names_cons] at hnames
      split at hnames
      · exact ⟨hnames.of_cons, fun _ => (List.nodup_cons.mp hnames).1⟩
      · exact ⟨hnames, fun hne => absurd hne (by assumption)⟩
    refine .cons (restores_of_reads hfits fun v hr => hp _ _ (.here rfl hr)) ?_
    refine ih hrest.1 fun name v hv => hp name v (.later (fun hne hid => ?_) hv)
    exact hrest.2 hne (hid ▸ (exists_binds_iff htail).mp ⟨v, hv⟩)

/-! ## Lookups -/

/-- **A lookup binds what the template that it finds binds.** The names that are bound are those of
the placeholders, each bound to what the leftmost placeholder of the name reads off its segment, so
that there are as many bindings as there are different names. If all names are different, filling
in the template gives back the segments of the request, but for zeros in front of integers. -/
theorem lookup_binds {routes : List (Method × String)} {t : Matcher} {m : Method}
    {target : String} {i : Nat} {p : Properties} (h : build routes = .ok t)
    (hl : t.lookup m target = some (i, p)) :
    ∃ ls, Matches routes m target i ls ∧
      (∀ name, (Dict.get? p name).isSome = true ↔ name ∈ names ls) ∧
      (∀ name v, Dict.get? p name = some v ↔ Binds name ls (Target.segments target) v) ∧
      Dict.size p = (names ls).dedup.length ∧
      ((names ls).Nodup → List.Forall₂ (Restores p) ls (Target.segments target)) := by
  obtain ⟨ls, hm, rfl, -⟩ := lookup_eq_some h hl
  have hbound : ∀ name v, Dict.get? (bindings ls ((Target.segments target).map Segment.mk)) name
      = some v ↔ Binds name ls (Target.segments target) v := fun _ _ => get?_bindings hm.fits
  have hnames : ∀ name, (Dict.get? (bindings ls ((Target.segments target).map Segment.mk))
      name).isSome = true ↔ name ∈ names ls := fun name => by
    rw [Option.isSome_iff_exists, ← exists_binds_iff hm.fits]
    exact exists_congr (hbound name)
  refine ⟨ls, hm, hnames, hbound, ?_, fun hnodup => ?_⟩
  · exact size_eq_length (List.nodup_dedup _) fun name => by rw [hnames, List.mem_dedup]
  · exact restores_of_binds hm.fits hnodup fun name v => (hbound name v).mpr

/-- What was bound in a branch that is given up is not bound, and of one name the first binds. -/
theorem lookup_binds_backtracking :
    let routes : List (Method × String) :=
      [(.get, "a/<string:y>/b"), (.get, "<string:x>/<int:n>/<int:x>")]
    ∃ t p ls, build routes = .ok t ∧ t.lookup .get "/a/007/5" = some (1, p) ∧
      p.entries = [("n", .int 7), ("x", .string "a")] ∧
      Matches routes .get "/a/007/5" 1 ls ∧ Dict.size p = (names ls).dedup.length := by
  intro routes
  let t : Matcher := (build routes).toOption.getD ⟨.nil⟩
  have hbuild : build routes = .ok t := rfl
  have hfound : (t.lookup .get "/a/007/5").map (fun r => (r.1, r.2.entries))
      = some (1, [("n", .int 7), ("x", .string "a")]) := by decide +kernel
  obtain ⟨⟨i, p⟩, hl, hp⟩ := Option.map_eq_some_iff.mp hfound
  obtain ⟨rfl, hentries⟩ := Prod.mk.inj hp
  obtain ⟨ls, hm, -, -, hsize, -⟩ := lookup_binds hbuild hl
  exact ⟨t, p, ls, hbuild, hl, hentries, hm, hsize⟩

end Routing.Matcher
