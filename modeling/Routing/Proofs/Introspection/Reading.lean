import Mathlib.Data.List.Forall2
import Routing.Introspection
import Routing.Proofs.Text.Html

/-!
# The page of an API is read back

The page is fixed markup with cells of declared text in between. No tag starts in a cell, so a
reader that knows the markup finds the end of every cell at the next tag, and reads its entities.

* `Fills.read?_write`: a filled layout is read back, in front of any text.
* `Fills.tags_write_append`: the tags of a filled layout are the same whatever its cells hold.
* `row?_row`, `rows?_rows`: the rows of routes are read back.
* `page_faithful`: the page gives back the version and one row for each route, in order; pages are
  equal iff these are; the tags of a page depend on the number of its routes only.
-/

namespace Routing.Introspection

open Text.Html

/-! ## Tags -/

/-- Whether a tag is open behind a character, given whether one is before it. -/
def inTagAfter (inside : Bool) (c : Char) : Bool :=
  if inside then c != '>' else c == '<'

/-- Whether a tag is open behind a text, given whether one is before it. -/
def inTag (inside : Bool) (s : List Char) : Bool :=
  s.foldl inTagAfter inside

/-- A text that leaves no tag open. -/
def Closed (s : List Char) : Prop :=
  inTag false s = false

instance (s : List Char) : Decidable (Closed s) :=
  inferInstanceAs (Decidable (inTag false s = false))

/-- The tags of a text, without what stands between them. -/
def tags : Bool → List Char → List Char
  | _, [] => []
  | inside, c :: s =>
    if inside || c == '<' then c :: tags (inTagAfter inside c) s
    else tags (inTagAfter inside c) s

theorem Closed.append {s t : List Char} (hs : Closed s) (ht : Closed t) : Closed (s ++ t) := by
  rw [Closed, inTag, List.foldl_append, ← inTag, ← inTag, hs, ht]

theorem tags_append (inside : Bool) (s t : List Char) :
    tags inside (s ++ t) = tags inside s ++ tags (inTag inside s) t := by
  induction s generalizing inside with
  | nil => rfl
  | cons c s ih =>
    rw [List.cons_append, tags, tags, ih, inTag, inTag, List.foldl_cons]
    split <;> rfl

theorem Closed.tags_append {s : List Char} (hs : Closed s) (t : List Char) :
    tags false (s ++ t) = tags false s ++ tags false t := by
  rw [Introspection.tags_append, hs]

/-- No tag starts in a text without an angle bracket. -/
theorem closed_and_tags_of_not_mem {s : List Char} (h : '<' ∉ s) :
    Closed s ∧ tags false s = [] := by
  induction s with
  | nil => exact ⟨rfl, rfl⟩
  | cons c s ih =>
    obtain ⟨hc, hs⟩ := List.ne_and_not_mem_of_not_mem_cons h
    have hplain : (c == '<') = false := beq_eq_false_iff_ne.mpr (Ne.symm hc)
    have hafter : inTagAfter false c = false := hplain
    obtain ⟨hclosed, htags⟩ := ih hs
    refine ⟨?_, ?_⟩
    · rw [Closed, inTag, List.foldl_cons, hafter]
      exact hclosed
    · rw [tags, hafter, htags, hplain]
      rfl

/-! ## Cells between marks -/

/-- Cells, each with its mark behind it. -/
def weave : List (List Char) → List (List Char) → List Char
  | w :: ws, m :: ms => w ++ (m ++ weave ws ms)
  | _, _ => []

/-- Reads cells: each ends at the next tag, where its mark has to stand. -/
def cells? : List (List Char) → List Char → Option (List (List Char) × List Char)
  | [], s => some ([], s)
  | m :: ms, s =>
    match Text.afterFront? m (s.dropWhile (· != '<')) with
    | none => none
    | some r =>
      (cells? ms r).map fun (ts, rest) => (unescapeChars (s.takeWhile (· != '<')) :: ts, rest)

/-- A cell shows a text: no tag starts in it, and its entities read as the text. -/
structure Shows (w t : List Char) : Prop where
  /-- No tag starts in the cell. -/
  plain : '<' ∉ w
  /-- The cell is read as the text. -/
  reads : unescapeChars w = t

theorem shows_escapeChars (t : List Char) : Shows (escapeChars t) t :=
  ⟨not_mem_escapeChars (by decide) (by decide) t, unescapeChars_escapeChars t⟩

/-- A text without special characters: it is written as it is. -/
def Bare (s : List Char) : Prop :=
  ∀ c ∈ s, c ∉ special

instance (s : List Char) : Decidable (Bare s) :=
  List.decidableBAll (fun c => c ∉ special) s

theorem bare_of_forall {p : Char → Bool} (hp : special.any p = false) {s : List Char}
    (h : ∀ c ∈ s, p c = true) : Bare s := fun c hc hspecial =>
  List.any_eq_false.mp hp c hspecial (h c hc)

theorem Bare.append {s t : List Char} (hs : Bare s) (ht : Bare t) : Bare (s ++ t) :=
  List.forall_mem_append.mpr ⟨hs, ht⟩

/-- A text without special characters may stand in front of a cell. -/
theorem Shows.append_left {p w t : List Char} (hp : Bare p) (h : Shows w t) :
    Shows (p ++ w) (p ++ t) := by
  have hlt : '<' ∉ p := fun hc => hp _ hc (by decide)
  have hamp : '&' ∉ p := fun hc => hp _ hc (by decide)
  refine ⟨?_, ?_⟩
  · rw [List.mem_append, not_or]
    exact ⟨hlt, h.plain⟩
  · rw [unescapeChars_append_of_not_mem hamp, h.reads]

theorem Bare.shows {t : List Char} (ht : Bare t) : Shows t t := by
  have h : Shows (t ++ []) (t ++ []) := (shows_escapeChars []).append_left ht
  rwa [List.append_nil] at h

theorem plain_of_shows {ws ts : List (List Char)} (h : List.Forall₂ Shows ws ts) :
    ∀ w ∈ ws, '<' ∉ w := by
  induction h with
  | nil => exact fun _ hw => absurd hw List.not_mem_nil
  | cons hw _ ih => exact List.forall_mem_cons.mpr ⟨hw.plain, ih⟩

/-- The end of a cell is at the mark behind it. -/
theorem Shows.ends {w t m r : List Char} (h : Shows w t) (hm : m.head? = some '<') :
    (w ++ (m ++ r)).takeWhile (· != '<') = w ∧ (w ++ (m ++ r)).dropWhile (· != '<') = m ++ r := by
  obtain ⟨m', rfl⟩ : ∃ m', m = '<' :: m' := List.head?_eq_some_iff.mp hm
  have hplain : ∀ c ∈ w, (c != '<') = true := fun c hc => bne_iff_ne.mpr fun he => h.plain (he ▸ hc)
  rw [List.takeWhile_append_of_pos hplain, List.dropWhile_append_of_pos hplain]
  simp

/-- **Cells are read back**, in front of any text. -/
theorem cells?_weave {marks ws ts : List (List Char)} (hstarts : ∀ m ∈ marks, m.head? = some '<')
    (hlen : ws.length = marks.length) (h : List.Forall₂ Shows ws ts) (rest : List Char) :
    cells? marks (weave ws marks ++ rest) = some (ts, rest) := by
  induction h generalizing marks with
  | nil =>
    obtain rfl := List.eq_nil_of_length_eq_zero hlen.symm
    rfl
  | @cons w t ws ts hw _ ih =>
    obtain ⟨m, ms, rfl⟩ := List.exists_cons_of_length_eq_add_one hlen.symm
    obtain ⟨hm, hms⟩ := List.forall_mem_cons.mp hstarts
    have htext : weave (w :: ws) (m :: ms) ++ rest = w ++ (m ++ (weave ws ms ++ rest)) := by
      rw [weave, List.append_assoc, List.append_assoc]
    obtain ⟨hcell, hmark⟩ := hw.ends hm
    rw [htext, cells?, hcell, hmark, Text.afterFront?_append]
    dsimp only
    rw [ih hms (Nat.succ.inj hlen), hw.reads]
    rfl

/-- The tags of cells between marks are those of the marks. -/
theorem tags_weave_append {marks ws : List (List Char)} (hclosed : ∀ m ∈ marks, Closed m)
    (hlen : ws.length = marks.length) (h : ∀ w ∈ ws, '<' ∉ w) (rest : List Char) :
    tags false (weave ws marks ++ rest) = marks.flatMap (tags false) ++ tags false rest := by
  induction marks generalizing ws with
  | nil =>
    obtain rfl := List.eq_nil_of_length_eq_zero hlen
    rfl
  | cons m ms ih =>
    obtain ⟨w, ws, rfl⟩ := List.exists_cons_of_length_eq_add_one hlen
    obtain ⟨hm, hms⟩ := List.forall_mem_cons.mp hclosed
    obtain ⟨hw, hws⟩ := List.forall_mem_cons.mp h
    obtain ⟨hcell, htags⟩ := closed_and_tags_of_not_mem hw
    rw [weave, List.append_assoc, hcell.tags_append, htags, List.nil_append, List.append_assoc,
      hm.tags_append, ih hms (Nat.succ.inj hlen) hws, List.flatMap_cons, List.append_assoc]

/-! ## Layouts -/

/-- Fixed markup with cells in it: a front, and a mark behind each cell. -/
structure Layout where
  /-- What precedes the first cell. -/
  front : List Char
  /-- What follows each cell. -/
  marks : List (List Char)
  /-- A mark starts with a tag. -/
  starts : ∀ m ∈ marks, m.head? = some '<'
  /-- No tag is left open in front of a cell or at the end. -/
  closed : ∀ m ∈ front :: marks, Closed m

namespace Layout

/-- The layout with its cells filled. -/
def write (l : Layout) (ws : List (List Char)) : List Char :=
  l.front ++ weave ws l.marks

/-- The texts in the cells of a filled layout at the start of a text, and what follows it. -/
def read? (l : Layout) (s : List Char) : Option (List (List Char) × List Char) :=
  (Text.afterFront? l.front s).bind (cells? l.marks)

/-- The tags of the layout. -/
def tags (l : Layout) : List Char :=
  (l.front :: l.marks).flatMap (Introspection.tags false)

/-- The cells fill the layout, and show the texts. -/
structure Fills (l : Layout) (ws ts : List (List Char)) : Prop where
  /-- There is a cell in front of each mark. -/
  length : ws.length = l.marks.length
  /-- Each cell shows its text. -/
  shows : List.Forall₂ Shows ws ts

variable {l : Layout} {ws ts : List (List Char)}

/-- **A filled layout is read back**, in front of any text. -/
theorem Fills.read?_write (h : l.Fills ws ts) (rest : List Char) :
    l.read? (l.write ws ++ rest) = some (ts, rest) := by
  rw [read?, write, List.append_assoc, Text.afterFront?_append, Option.bind_some,
    cells?_weave l.starts h.length h.shows]

/-- **What is in the cells does not change the tags.** -/
theorem Fills.tags_write_append (h : l.Fills ws ts) (rest : List Char) :
    Introspection.tags false (l.write ws ++ rest) = l.tags ++ Introspection.tags false rest := by
  obtain ⟨hfront, hmarks⟩ := List.forall_mem_cons.mp l.closed
  rw [write, List.append_assoc, hfront.tags_append,
    tags_weave_append hmarks h.length (plain_of_shows h.shows), tags, List.flatMap_cons,
    List.append_assoc]

end Layout

/-! ## Rows -/

/-- The markup of a row, with its six cells. -/
def rowLayout : Layout where
  front := "<tr><td>".toList
  marks := ["</td><td>".toList, "</td><td>".toList, "</td><td class=\"code\"><pre>".toList,
    "</pre></td><td class=\"code\"><pre>".toList, "</pre></td><td>".toList, "</td></tr>\n".toList]
  starts := by decide
  closed := by decide

/-- What precedes the template in the first cell of a row. -/
def mountChars (version : List Char) : List Char :=
  "/api/v".toList ++ (version ++ "/".toList)

/-- What a row tells of a route. -/
structure Entry where
  /-- The template. -/
  uri : String
  /-- The name of the method. -/
  method : String
  /-- What the route does. -/
  description : String
  /-- The example of a request body. -/
  input : String
  /-- The example of a response body. -/
  output : String
  /-- The status codes that may come back. -/
  statuses : String
deriving DecidableEq

variable {σ τ : Type}

/-- The entry of a route. -/
def Entry.ofRoute (r : Route σ) : Entry where
  uri := r.uri
  method := r.method.name
  description := r.description
  input := r.input.pretty
  output := r.output.pretty
  statuses := r.statuses

/-- The entry that the texts in the cells of a row tell. -/
def Entry.ofTexts? (version : List Char) : List (List Char) → Option Entry
  | [path, method, description, input, output, statuses] =>
    (Text.afterFront? (mountChars version) path).map fun uri =>
      { uri := .ofList uri, method := .ofList method, description := .ofList description,
        input := .ofList input, output := .ofList output, statuses := .ofList statuses }
  | _ => none

/-- Reads the row at the start of a text. -/
def row? (version : List Char) (s : List Char) : Option (Entry × List Char) :=
  match rowLayout.read? s with
  | none => none
  | some (texts, rest) => (Entry.ofTexts? version texts).map fun e => (e, rest)

/-- Reads rows up to the end of the page. -/
def rows? (version : List Char) : Nat → List Char → Option (List Entry)
  | 0, _ => none
  | fuel + 1, s =>
    match row? version s with
    | none => if s = closing.toList then some [] else none
    | some (e, rest) => (rows? version fuel rest).map (e :: ·)

/-- The texts that the cells of a row show. -/
def Entry.texts (version : List Char) (e : Entry) : List (List Char) :=
  [mountChars version ++ e.uri.toList, e.method.toList, e.description.toList, e.input.toList,
    e.output.toList, e.statuses.toList]

/-- The cells of a row. -/
def Entry.cells (version : List Char) (e : Entry) : List (List Char) :=
  [mountChars version ++ escapeChars e.uri.toList, e.method.toList,
    escapeChars e.description.toList, escapeChars e.input.toList, escapeChars e.output.toList,
    escapeChars e.statuses.toList]

theorem toList_row (version : Nat) (r : Route σ) :
    (row version r).toList
      = rowLayout.write ((Entry.ofRoute r).cells (Nat.toDigits 10 version)) := by
  have hfront : "<tr><td>/api/v".toList = "<tr><td>".toList ++ "/api/v".toList := by decide
  have hdigits : (toString version).toList = Nat.toDigits 10 version := Nat.toList_repr
  unfold row rowLayout Entry.cells Entry.ofRoute mountChars
  simp only [escape, String.toList_append, String.toList_ofList, hfront, hdigits, Layout.write,
    weave, List.append_assoc, List.append_nil]

theorem toList_rows (version : Nat) (rs : List (Route σ)) :
    (rows version rs).toList
      = (rs.map Entry.ofRoute).flatMap fun e =>
          rowLayout.write (e.cells (Nat.toDigits 10 version)) := by
  induction rs with
  | nil => rfl
  | cons r rs ih => rw [rows, String.toList_append, toList_row, ih, List.map_cons, List.flatMap_cons]

theorem bare_toDigits (n : Nat) : Bare (Nat.toDigits 10 n) := by
  have hdigit : ∀ c ∈ Nat.toDigits 10 n, c.isDigit = true := fun c hc =>
    Nat.isDigit_of_mem_toDigits (by decide) (by decide) hc
  exact bare_of_forall (by decide) hdigit

/-- The name of a method needs no entities. -/
theorem bare_method (m : Method) : Bare m.name.toList := by
  have h := m.legal
  rw [isMethodName, Bool.and_eq_true] at h
  exact bare_of_forall (by decide) (List.all_eq_true.mp h.2)

theorem fills_row (version : Nat) (r : Route σ) :
    rowLayout.Fills ((Entry.ofRoute r).cells (Nat.toDigits 10 version))
      ((Entry.ofRoute r).texts (Nat.toDigits 10 version)) := by
  have hmount : Bare (mountChars (Nat.toDigits 10 version)) :=
    .append (by decide) ((bare_toDigits version).append (by decide))
  -- there are six cells and six marks
  refine ⟨Eq.refl 6, ?_⟩
  exact .cons ((shows_escapeChars _).append_left hmount) <| .cons (bare_method r.method).shows <|
    .cons (shows_escapeChars _) <| .cons (shows_escapeChars _) <| .cons (shows_escapeChars _) <|
    .cons (shows_escapeChars _) .nil

theorem ofTexts?_texts (version : List Char) (e : Entry) :
    Entry.ofTexts? version (e.texts version) = some e := by
  rw [Entry.texts, Entry.ofTexts?, Text.afterFront?_append, Option.map_some]
  simp only [String.ofList_toList]

/-- **A row is read back**, in front of any text. -/
theorem row?_row (version : Nat) (r : Route σ) (rest : List Char) :
    row? (Nat.toDigits 10 version) ((row version r).toList ++ rest)
      = some (Entry.ofRoute r, rest) := by
  rw [toList_row, row?, (fills_row version r).read?_write]
  dsimp only
  rw [ofTexts?_texts, Option.map_some]

theorem row?_closing (version : List Char) : row? version closing.toList = none := by
  have h : rowLayout.read? closing.toList = none := by decide
  rw [row?, h]

/-- **The rows are read back.** -/
theorem rows?_rows (version : Nat) {fuel : Nat} {rs : List (Route σ)} (h : rs.length < fuel) :
    rows? (Nat.toDigits 10 version) fuel ((rows version rs).toList ++ closing.toList)
      = some (rs.map Entry.ofRoute) := by
  induction rs generalizing fuel with
  | nil =>
    obtain ⟨fuel, rfl⟩ := Nat.exists_eq_add_one_of_ne_zero (Nat.ne_of_gt h)
    rw [rows, String.toList_empty, List.nil_append, rows?, row?_closing, if_pos rfl, List.map_nil]
  | cons r rs ih =>
    obtain ⟨fuel, rfl⟩ := Nat.exists_eq_add_one_of_ne_zero (Nat.ne_of_gt (Nat.zero_lt_of_lt h))
    rw [rows, String.toList_append, List.append_assoc, rows?, row?_row]
    dsimp only
    rw [ih (Nat.lt_of_succ_lt_succ h), Option.map_some, List.map_cons]

theorem tags_rows_append (version : Nat) (rs : List (Route σ)) (rest : List Char) :
    tags false ((rows version rs).toList ++ rest)
      = (List.replicate rs.length rowLayout.tags).flatten ++ tags false rest := by
  induction rs with
  | nil => rfl
  | cons r rs ih =>
    rw [rows, String.toList_append, List.append_assoc, toList_row,
      (fills_row version r).tags_write_append, ih, List.length_cons,
      List.replicate_succ, List.flatten_cons, List.append_assoc]

theorem length_le_length_rows (version : Nat) (rs : List (Route σ)) :
    rs.length ≤ (rows version rs).toList.length := by
  induction rs with
  | nil => exact Nat.zero_le _
  | cons r rs ih =>
    have hrow : 1 ≤ (row version r).toList.length := by
      rw [toList_row, Layout.write, List.length_append]
      exact Nat.le_add_right_of_le (by decide)
    rw [rows, String.toList_append, List.length_append, List.length_cons]
    omega

/-! ## The page -/

theorem closed_style : Closed style.toList := by
  unfold style
  simp only [String.toList_append]
  refine .append (.append (.append (.append (.append (.append ?_ ?_) ?_) ?_) ?_) ?_) ?_
    <;> decide +kernel

theorem closed_tableHeader : Closed tableHeader.toList := by
  unfold tableHeader
  simp only [String.toList_append]
  refine .append
    (.append (.append (.append (.append (.append (.append ?_ ?_) ?_) ?_) ?_) ?_) ?_) ?_ <;> decide

/-- The markup in front of the rows, with a cell for the version in the title and in the
heading. -/
def openingLayout : Layout where
  front := "<!DOCTYPE html>\n<html>\n<head>\n  <title>Pathway API version ".toList
  marks := ["</title>\n".toList ++ (style.toList
    ++ "</head>\n<body>\n<h2>Pathway API version ".toList), "</h2>\n".toList ++ tableHeader.toList]
  starts := by
    rw [List.forall_mem_cons, List.forall_mem_singleton]
    exact ⟨rfl, rfl⟩
  closed := by
    rw [List.forall_mem_cons, List.forall_mem_cons, List.forall_mem_singleton]
    refine ⟨?_, ?_, ?_⟩
    · decide
    · refine Closed.append ?_ (Closed.append closed_style ?_) <;> decide
    · refine Closed.append ?_ closed_tableHeader
      decide

/-- Reads a page: the version of the API and the rows. -/
def read? (page : String) : Option (Nat × List Entry) :=
  match openingLayout.read? page.toList with
  | some ([version, _], rest) =>
    (rows? version rest.length rest).map fun es => (Nat.ofDigitChars 10 version 0, es)
  | _ => none

theorem toList_opening (version : Nat) :
    (opening version).toList
      = openingLayout.write [Nat.toDigits 10 version, Nat.toDigits 10 version] := by
  have hdigits : (toString version).toList = Nat.toDigits 10 version := Nat.toList_repr
  unfold opening openingLayout
  simp only [String.toList_append, hdigits, Layout.write, weave, List.append_assoc, List.append_nil]

theorem fills_opening (version : Nat) :
    openingLayout.Fills [Nat.toDigits 10 version, Nat.toDigits 10 version]
      [Nat.toDigits 10 version, Nat.toDigits 10 version] :=
  ⟨rfl, .cons (bare_toDigits version).shows <| .cons (bare_toDigits version).shows .nil⟩

theorem toList_page (a : Api σ) :
    (page a).toList
      = openingLayout.write [Nat.toDigits 10 a.version, Nat.toDigits 10 a.version]
        ++ ((rows a.version a.routes).toList ++ closing.toList) := by
  rw [page, String.toList_append, String.toList_append, toList_opening, List.append_assoc]

/-- **The version and the routes are read off the page.** -/
theorem read?_page (a : Api σ) :
    read? (page a) = some (a.version, a.routes.map Entry.ofRoute) := by
  have hfuel : a.routes.length
      < ((rows a.version a.routes).toList ++ closing.toList).length := by
    have hrows := length_le_length_rows a.version a.routes
    have hclosing : 1 ≤ closing.toList.length := by decide
    rw [List.length_append]
    omega
  rw [read?, toList_page, (fills_opening a.version).read?_write]
  dsimp only
  rw [rows?_rows a.version hfuel, Option.map_some,
    Nat.ofDigitChars_toDigits (by decide) (by decide)]

/-- Pages of equal versions and entries are equal. -/
theorem page_congr {a : Api σ} {b : Api τ} (hversion : a.version = b.version)
    (hentries : a.routes.map Entry.ofRoute = b.routes.map Entry.ofRoute) : page a = page b := by
  rw [← String.toList_inj, toList_page, toList_page, toList_rows, toList_rows, hversion, hentries]

/-- **What is declared does not change the tags.** -/
theorem tags_page (a : Api σ) :
    tags false (page a).toList
      = openingLayout.tags ++ ((List.replicate a.routes.length rowLayout.tags).flatten
        ++ tags false closing.toList) := by
  rw [toList_page, (fills_opening a.version).tags_write_append, tags_rows_append]

/-- **The page shows what is declared, whatever the texts hold.** One reader gives the version
and one entry for each route, in the order of declaration; so pages are equal iff these are; and
the tags of a page are those of the opening, of as many rows as there are routes, and of the
closing. -/
theorem page_faithful :
    (∀ a : Api σ, read? (page a) = some (a.version, a.routes.map Entry.ofRoute)) ∧
    (∀ (a : Api σ) (b : Api τ), page a = page b ↔
      a.version = b.version ∧ a.routes.map Entry.ofRoute = b.routes.map Entry.ofRoute) ∧
    ∀ a : Api σ, tags false (page a).toList
      = openingLayout.tags ++ ((List.replicate a.routes.length rowLayout.tags).flatten
        ++ tags false closing.toList) := by
  refine ⟨read?_page, fun a b => ⟨fun h => ?_, fun h => page_congr h.1 h.2⟩, tags_page⟩
  have hread : some (a.version, a.routes.map Entry.ofRoute)
      = some (b.version, b.routes.map Entry.ofRoute) := by
    rw [← read?_page, h, read?_page]
  exact Prod.mk.inj (Option.some.inj hread)

end Routing.Introspection
