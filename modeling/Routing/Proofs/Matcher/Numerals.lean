import Routing.Proofs.Matcher.Search

/-!
# Segments that are numerals

A segment is looked at in two ways: its first character must be a digit, and all of it must read as
an integer of 64 bits. The first leaves no sign to the second, so together they ask for a numeral:
digits only, however many zeros in front, with a value that leaves room for a sign. A segment that
is no numeral is lost for integer placeholders only.

* `number?_eq_value_iff`: what a segment reads as.
* `accepts_iff_takes`: what labels take.
* `reads_numerals`: both, with what follows for the lookup of a route.
-/

namespace Routing

/-- The value of decimal digits. -/
def Segment.value (text : String) : Nat :=
  Nat.ofDigitChars 10 text.toList 0

/-- A numeral: ASCII digits, at least one, with a value that has 64 bits with its sign. -/
structure Segment.IsNumeral (text : String) : Prop where
  nonempty : text ≠ ""
  digits : ∀ c ∈ text.toList, c.isDigit = true
  fits : Segment.value text < Nat.pow 2 63

/-- What a label takes: a literal its own text, an integer placeholder numerals, a text placeholder
everything. -/
def Label.Takes (l : Label) (text : String) : Prop :=
  match l.kind with
  | .literal => l.id = text
  | .int => Segment.IsNumeral text
  | .string => True

namespace Segment

/-- **What a segment reads as**: the value of its digits, if it is a numeral. -/
theorem number?_eq_value_iff {text : String} {n : Int} :
    (Segment.mk text).number? = some n ↔ IsNumeral text ∧ n = value text := by
  have hlimit : ∀ k : Nat, k ≤ Nat.pow 2 63 - 1 ↔ k < Nat.pow 2 63 := fun k =>
    (Nat.lt_iff_le_pred (Nat.two_pow_pos 63)).symm
  rw [Matcher.number?_eq_some_iff]
  constructor
  · rintro ⟨c, r, hs, hc, hread⟩
    rw [hs, Text.Numeral.int64?_of_isDigit hc, ← hs, Option.map_eq_some_iff] at hread
    obtain ⟨k, hk, rfl⟩ := hread
    obtain ⟨hne, hdigits, rfl, hle⟩ := Text.Numeral.natural?_eq_some_iff.mp hk
    exact ⟨⟨fun h => hne (String.toList_eq_nil_iff.mpr h), hdigits, (hlimit _).mp hle⟩, rfl⟩
  · rintro ⟨h, rfl⟩
    obtain ⟨c, r, hs⟩ :=
      List.exists_cons_of_ne_nil fun hnil => h.nonempty (String.toList_eq_nil_iff.mp hnil)
    have hc : c.isDigit = true := h.digits c (hs ▸ List.mem_cons_self)
    refine ⟨c, r, hs, hc, ?_⟩
    rw [hs, Text.Numeral.int64?_of_isDigit hc, ← hs]
    refine Option.map_eq_some_iff.mpr ⟨value text, ?_, rfl⟩
    exact Text.Numeral.natural?_eq_some_iff.mpr
      ⟨hs ▸ List.cons_ne_nil c r, h.digits, rfl, (hlimit _).mpr h.fits⟩

/-- The decimal text of a number is a numeral with its value, if it is small enough. -/
theorem number?_toString {n : Nat} (h : n < Nat.pow 2 63) :
    (Segment.mk (toString n)).number? = some (n : Int) := by
  have htext : (toString n).toList = Nat.toDigits 10 n := Nat.toList_repr
  have hvalue : value (toString n) = n := by
    rw [value, htext, Nat.ofDigitChars_ten_toDigits]
  refine number?_eq_value_iff.mpr ⟨⟨fun hempty => ?_, fun c hc => ?_, hvalue.symm ▸ h⟩, ?_⟩
  · rw [hempty] at htext
    exact Nat.toDigits_ne_nil htext.symm
  · rw [htext] at hc
    exact Nat.isDigit_of_mem_toDigits (by decide) (by decide) hc
  · rw [hvalue]

/-- **What labels take.** -/
theorem accepts_iff_takes (l : Label) (text : String) :
    l.accepts ⟨text⟩ = true ↔ l.Takes text := by
  obtain ⟨kind, id⟩ := l
  cases kind with
  | literal => exact decide_eq_true_iff
  | int =>
    refine Option.isSome_iff_exists.trans ⟨?_, fun h => ⟨_, number?_eq_value_iff.mpr ⟨h, rfl⟩⟩⟩
    rintro ⟨n, hn⟩
    exact (number?_eq_value_iff.mp hn).1
  | string => exact ⟨fun _ => trivial, fun _ => rfl⟩

theorem takes_eq_fits : Label.Takes = Matcher.Fits := by
  funext l text
  exact propext ((accepts_iff_takes l text).symm.trans Matcher.accepts_iff)

/-- A route is found if there is one whose labels take the segments of the target one by one. -/
theorem lookup_isSome_iff {routes : List (Method × String)} {t : Matcher}
    (h : Matcher.build routes = .ok t) (m : Method) (target : String) :
    (t.lookup m target).isSome = true ↔ ∃ i ls, Matcher.Declares routes (ls, m, i) ∧ ls ≠ [] ∧
      List.Forall₂ Label.Takes ls (Target.segments target) := by
  rw [← Option.ne_none_iff_isSome, ne_eq, Matcher.lookup_eq_none h, takes_eq_fits]
  simp only [not_forall, not_not]
  refine exists_congr fun i => exists_congr fun ls => ⟨?_, ?_⟩
  · exact fun hm => ⟨hm.declared, hm.nonempty, hm.fits⟩
  · exact fun ⟨hd, hne, hfits⟩ => ⟨hd, hne, hfits⟩

/-- **Segments read as numerals.** A segment reads as an integer iff it is a numeral, and then as
its value, which is not negative and has 64 bits with its sign; the decimal texts of all such
numbers read as these. So integer placeholders take numerals and nothing else, and no other segment
is lost for a literal or a text placeholder beside them. -/
theorem reads_numerals (text : String) :
    (∀ n : Int, (Segment.mk text).number? = some n ↔ IsNumeral text ∧ n = value text) ∧
    (∀ n : Int, (Segment.mk text).number? = some n → 0 ≤ n ∧ n < Int.ofNat (Nat.pow 2 63)) ∧
    (∀ n : Nat, n < Nat.pow 2 63 → (Segment.mk (toString n)).number? = some (n : Int)) ∧
    (∀ l : Label, l.accepts ⟨text⟩ = true ↔ l.Takes text) ∧
    ∀ (routes : List (Method × String)) (t : Matcher), Matcher.build routes = .ok t →
      ∀ (m : Method) (target : String), (t.lookup m target).isSome = true ↔
        ∃ i ls, Matcher.Declares routes (ls, m, i) ∧ ls ≠ [] ∧
          List.Forall₂ Label.Takes ls (Target.segments target) := by
  refine ⟨fun n => number?_eq_value_iff, fun n hn => ?_, fun n => number?_toString,
    fun l => accepts_iff_takes l text, fun routes t h => lookup_isSome_iff h⟩
  obtain ⟨hnumeral, rfl⟩ := number?_eq_value_iff.mp hn
  exact ⟨Int.natCast_nonneg _, Int.ofNat_lt.mpr hnumeral.fits⟩

/-- The largest integer reads back, zeros in front or not, and the next one is left to the text
placeholder. -/
theorem reads_numerals_limit :
    let routes : List (Method × String) := [(.get, "<int:n>"), (.get, "<string:s>")]
    (Segment.mk (toString 9223372036854775807)).number? = some 9223372036854775807 ∧
      (Segment.mk "0009223372036854775807").number? = some 9223372036854775807 ∧
      ∃ t, Matcher.build routes = .ok t ∧
        (t.lookup .get "/9223372036854775808").isSome = true := by
  intro routes
  let t : Matcher := (Matcher.build routes).toOption.getD ⟨.nil⟩
  have hbuild : Matcher.build routes = .ok t := rfl
  have hzeros : IsNumeral "0009223372036854775807" :=
    ⟨by decide, List.all_eq_true.mp (by decide), by decide⟩
  refine ⟨(reads_numerals "").2.2.1 _ (by decide),
    ((reads_numerals "0009223372036854775807").1 _).mpr ⟨hzeros, rfl⟩,
    t, hbuild, ((reads_numerals "").2.2.2.2 routes t hbuild .get "/9223372036854775808").mpr ?_⟩
  exact ⟨1, [⟨.string, "s"⟩], ⟨_, rfl, rfl⟩, by decide, .cons trivial .nil⟩

end Segment

end Routing
