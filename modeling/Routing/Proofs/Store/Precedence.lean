import Routing.Proofs.Store.LongestPrefix

/-!
# The order of precedence

The paths that may answer a target come in an order that does not depend on what is registered: the
paths in front of what is left below the base path, the longest first, and the empty path last. The
first of them with a handler for the method answers, and at one path the registration of the method
itself comes before that of all methods. So every answer comes from one registration, and an update
matters to the requests that the registration answers: after a withdrawal these go on to the next
registration in order, and all others are answered as before.

* `answer_eq_first`: a registry answers from the first path with a handler.
* `answer_eq_some_iff`: every answer comes from a registration.
* `Source.of_le`: a registration that answers does so as long as it is there and nothing is added.
* `Source.answer_remove`: what answers in place of a withdrawn registration.
* `lookup_update`: what a registration and a withdrawal change after any updates.
-/

namespace Routing.Store

variable {H : Type}

/-- A path in front of a text: it stops at a boundary, and none of its segments is empty. -/
structure Front (p c : List Char) : Prop where
  boundary : Target.atBoundary (p.drop c.length) = true
  plain : Target.Plain c
  segments : [] ∉ Text.split '/' c

instance (p : List Char) : DecidablePred (Front p) := fun c =>
  decidable_of_iff (Target.atBoundary (p.drop c.length) = true ∧ Target.Plain c ∧
      ∀ s ∈ Text.split '/' c, s ≠ [])
    ⟨fun ⟨h1, h2, h3⟩ => ⟨h1, h2, fun e => h3 [] e rfl⟩,
      fun ⟨h1, h2, h3⟩ => ⟨h1, h2, fun _ hs e => h3 (e ▸ hs)⟩⟩

/-- The paths in front of a text, the longest first. -/
def frontTexts (p : List Char) : List (List Char) :=
  p.inits.reverse.filter (Front p)

/-- The paths in front of what a target leaves below the base path, the longest first, each with
its tail. -/
def fronts (base target : String) : List (String × String) :=
  (below? base.toList target.toList).elim [] fun r =>
    (frontTexts (dropSlash r)).map fun c =>
      (String.ofList c, String.ofList ((dropSlash r).drop c.length))

/-- The empty path, with all that a target leaves below the base path as its tail, unless that is
nothing but a slash. -/
def fallback (base target : String) : List (String × String) :=
  (below? base.toList target.toList).elim [] fun r =>
    if dropSlash r = [] then [] else [("", String.ofList r)]

/-- The paths that may answer a target, in order of precedence, each with its tail. -/
def places (base target : String) : List (String × String) :=
  fronts base target ++ fallback base target

namespace Registry

/-- What the first of some paths with a handler for the method answers. -/
def first (M : Registry H) (m : Method) (ps : List (String × String)) : Option (String × H) :=
  ps.findSome? fun p => (M.pick m p.1).map fun h => (p.2, h)

/-- `h` is registered under `(path, v)`, and picked at the path for a method. -/
inductive Picks (M : Registry H) (m : Method) (path : String) : Verb → H → Prop
  | exact {h : H} : M.lookup (path, .exact m) = some h → Picks M m path (.exact m) h
  | any {h : H} : M.lookup (path, .exact m) = none → M.lookup (path, .any) = some h →
    Picks M m path .any h

/-- **The registration of `h` under `(path, v)` answers a target**, with a tail: it is picked at its
path for the method, and no path that comes before has a handler for the method. -/
structure Source (M : Registry H) (base : String) (m : Method) (target path : String) (v : Verb)
    (tail : String) (h : H) : Prop where
  first : ∃ before after, places base target = before ++ (path, tail) :: after ∧
    ∀ p ∈ before, M.pick m p.1 = none
  picks : M.Picks m path v h

end Registry

/-! ## The order -/

theorem pairwise_inits {α : Type} (l : List α) :
    l.inits.Pairwise fun a b => a.length < b.length := by
  induction l with
  | nil => simp
  | cons x l ih =>
    rw [List.inits_cons, List.pairwise_cons]
    refine ⟨fun a ha => ?_, List.pairwise_map.mpr (ih.imp fun h => by simpa using h)⟩
    obtain ⟨b, -, rfl⟩ := List.mem_map.mp ha
    simp

theorem mem_frontTexts {p c : List Char} : c ∈ frontTexts p ↔ c <+: p ∧ Front p c := by
  simp [frontTexts]

theorem pairwise_frontTexts (p : List Char) :
    (frontTexts p).Pairwise fun a b => b.length < a.length :=
  (List.pairwise_reverse.mpr (pairwise_inits p)).filter _

theorem Front.ne_nil {p c : List Char} (h : Front p c) : c ≠ [] := by
  rintro rfl
  exact h.segments (by simp [Text.split])

/-- **Longer paths come first.** -/
theorem pairwise_places (base target : String) :
    (places base target).Pairwise fun a b => b.1.length < a.1.length := by
  unfold places fronts fallback
  cases below? base.toList target.toList with
  | none => simp
  | some r =>
    simp only [Option.elim_some]
    refine List.pairwise_append.mpr ⟨?_, by split <;> simp, fun a ha b hb => ?_⟩
    · exact List.pairwise_map.mpr ((pairwise_frontTexts _).imp fun h => by simpa using h)
    · obtain ⟨c, hc, rfl⟩ := List.mem_map.mp ha
      have hne := (mem_frontTexts.mp hc).2.ne_nil
      split at hb
      · exact absurd hb List.not_mem_nil
      · rw [List.mem_singleton.mp hb]
        simpa using List.length_pos_of_ne_nil hne

-- no path goes on behind an empty segment
example : places "svc" "//svc/a/b//c?q"
    = [("a/b", "//c?q"), ("a", "/b//c?q"), ("", "/a/b//c?q")] := by decide

/-- What comes behind an element of a descending list is what is smaller. -/
theorem filter_lt_of_pairwise {α : Type} {f : α → Nat} {l before after : List α} {a : α}
    (hl : l.Pairwise fun x y => f y < f x) (h : l = before ++ a :: after) :
    l.filter (fun x => f x < f a) = after := by
  subst h
  obtain ⟨-, hafter, hbefore⟩ := List.pairwise_append.mp hl
  rw [List.filter_append, List.filter_cons_of_neg (by simp), List.filter_eq_nil_iff.mpr,
    List.filter_eq_self.mpr, List.nil_append]
  · exact fun x hx => decide_eq_true ((List.pairwise_cons.mp hafter).1 x hx)
  · intro x hx
    have := hbefore x hx a List.mem_cons_self
    simp only [decide_eq_true_eq]
    omega

namespace Registry

variable {M N : Registry H} {base target path tail : String} {m : Method} {v : Verb} {h : H}

/-! ## Answers in order -/

theorem candidate_iff {p c : List Char} :
    M.Candidate m p c ↔ Front p c ∧ (M.pick m (String.ofList c)).isSome = true :=
  ⟨fun h => ⟨⟨h.boundary, h.plain, h.segments⟩, h.registered⟩,
    fun h => ⟨h.1.ne_nil, h.1.boundary, h.1.plain, h.1.segments, h.2⟩⟩

theorem first_append (M : Registry H) (m : Method) (ps qs : List (String × String)) :
    M.first m (ps ++ qs) = (M.first m ps).or (M.first m qs) :=
  List.findSome?_append

theorem first_cons (M : Registry H) (m : Method) (p : String × String)
    (ps : List (String × String)) :
    M.first m (p :: ps) = ((M.pick m p.1).map fun h => (p.2, h)).or (M.first m ps) := by
  rw [first, List.findSome?_cons]
  cases M.pick m p.1 <;> rfl

theorem first_eq_none_iff {ps : List (String × String)} :
    M.first m ps = none ↔ ∀ p ∈ ps, M.pick m p.1 = none := by
  simp [first, List.findSome?_eq_none_iff]

theorem first_congr {ps : List (String × String)}
    (hp : ∀ p ∈ ps, M.pick m p.1 = N.pick m p.1) : M.first m ps = N.first m ps := by
  induction ps with
  | nil => rfl
  | cons p ps ih =>
    obtain ⟨hhead, htail⟩ := List.forall_mem_cons.mp hp
    rw [first_cons, first_cons, hhead, ih htail]

/-- The first path in front of a text with a handler is the longest candidate. -/
theorem first_frontTexts (M : Registry H) (m : Method) (p : List Char) :
    M.first m ((frontTexts p).map fun c => (String.ofList c, String.ofList (p.drop c.length)))
      = (M.longest m p).bind fun c => (M.pick m (String.ofList c)).map fun h =>
          (String.ofList (p.drop c.length), h) := by
  cases hc : M.longest m p with
  | none =>
    refine first_eq_none_iff.mpr fun q hq => ?_
    obtain ⟨c, hc', rfl⟩ := List.mem_map.mp hq
    obtain ⟨hpre, hfront⟩ := mem_frontTexts.mp hc'
    refine Option.not_isSome_iff_eq_none.mp fun hreg => ?_
    exact longest_eq_none_iff.mp hc c hpre (candidate_iff.mpr ⟨hfront, hreg⟩)
  | some c =>
    obtain ⟨hpre, hcand, hmax⟩ := longest_eq_some_iff.mp hc
    obtain ⟨h, hh⟩ := Option.isSome_iff_exists.mp hcand.registered
    obtain ⟨as, bs, hsplit⟩ :=
      List.append_of_mem (mem_frontTexts.mpr ⟨hpre, (candidate_iff.mp hcand).1⟩)
    have hdesc := pairwise_frontTexts p
    rw [hsplit] at hdesc
    -- what comes before is longer, and so no candidate
    have hnone : ∀ a ∈ as, M.pick m (String.ofList a) = none := fun a ha => by
      obtain ⟨hpre', hfront⟩ := mem_frontTexts.mp (hsplit ▸ List.mem_append_left _ ha)
      refine Option.not_isSome_iff_eq_none.mp fun hreg => ?_
      have hle := hmax a hpre' (candidate_iff.mpr ⟨hfront, hreg⟩)
      have hlt := (List.pairwise_append.mp hdesc).2.2 a ha c List.mem_cons_self
      omega
    rw [hsplit, List.map_append, List.map_cons, first_append, first_cons, first_eq_none_iff.mpr,
      Option.none_or, hh, Option.bind_some, hh]
    · rfl
    · intro q hq
      obtain ⟨a, ha, rfl⟩ := List.mem_map.mp hq
      exact hnone a ha

/-- **A registry answers from the first path with a handler.** -/
theorem answer_eq_first (M : Registry H) (base : String) (m : Method) (target : String) :
    M.answer base m target = M.first m (places base target) := by
  unfold places fronts fallback
  cases hr : below? base.toList target.toList with
  | none => exact answer_of_outside hr
  | some r =>
    rw [Option.elim_some, Option.elim_some, first_append, first_frontTexts]
    cases hc : M.longest m (dropSlash r) with
    | some c =>
      obtain ⟨-, hcand, -⟩ := longest_eq_some_iff.mp hc
      obtain ⟨h, hh⟩ := Option.isSome_iff_exists.mp hcand.registered
      rw [answer_of_longest hr hc, Option.bind_some, hh]
      rfl
    | none =>
      rw [answer_of_no_longest hr hc, Option.bind_none, Option.none_or]
      split
      · rfl
      · rw [first_cons]
        exact (Option.or_none).symm

theorem pick_eq_some_iff : M.pick m path = some h ↔ ∃ v, M.Picks m path v h := by
  rw [pick, Option.or_eq_some_iff]
  constructor
  · rintro (hh | ⟨hnone, hh⟩)
    · exact ⟨_, .exact hh⟩
    · exact ⟨_, .any hnone hh⟩
  · rintro ⟨v, ⟨hh⟩ | ⟨hnone, hh⟩⟩
    · exact Or.inl hh
    · exact Or.inr ⟨hnone, hh⟩

/-- What is picked is registered. -/
theorem Picks.lookup_eq (hp : M.Picks m path v h) : M.lookup (path, v) = some h := by
  cases hp with
  | exact hh => exact hh
  | any _ hh => exact hh

/-- **Every answer comes from a registration.** -/
theorem answer_eq_some_iff :
    M.answer base m target = some (tail, h) ↔ ∃ path v, M.Source base m target path v tail h := by
  rw [answer_eq_first, first, List.findSome?_eq_some_iff]
  constructor
  · rintro ⟨before, ⟨path, tail'⟩, after, hplaces, hp, hbefore⟩
    obtain ⟨h', hpick, heq⟩ := Option.map_eq_some_iff.mp hp
    obtain ⟨rfl, rfl⟩ := Prod.mk.inj heq
    obtain ⟨v, hv⟩ := pick_eq_some_iff.mp hpick
    exact ⟨path, v, ⟨before, after, hplaces, fun p hp => Option.map_eq_none_iff.mp (hbefore p hp)⟩,
      hv⟩
  · rintro ⟨path, v, ⟨before, after, hplaces, hbefore⟩, hv⟩
    refine ⟨before, (path, tail), after, hplaces, ?_, fun p hp => ?_⟩
    · rw [pick_eq_some_iff.mpr ⟨v, hv⟩]
      rfl
    · rw [hbefore p hp]
      rfl

/-! ## Updates -/

theorem pick_eq_none_of_le (hle : ∀ k, N.lookup k = none → M.lookup k = none)
    (hn : N.pick m path = none) : M.pick m path = none := by
  rw [pick, Option.or_eq_none_iff] at hn ⊢
  exact ⟨hle _ hn.1, hle _ hn.2⟩

/-- **A registration that answers goes on to answer** if others are withdrawn. -/
theorem Source.of_le (hs : N.Source base m target path v tail h)
    (hle : ∀ k, N.lookup k = none → M.lookup k = none) (hkey : M.lookup (path, v) = some h) :
    M.Source base m target path v tail h := by
  obtain ⟨⟨before, after, hplaces, hbefore⟩, hpicks⟩ := hs
  refine ⟨⟨before, after, hplaces, fun p hp => pick_eq_none_of_le hle (hbefore p hp)⟩, ?_⟩
  cases hpicks with
  | exact _ => exact .exact hkey
  | any hnone _ => exact .any (hle _ hnone) hkey

/-- A registry with fewer registrations answers as before, unless the registration that answered is
not the same any more. -/
theorem answer_eq_of_le (hle : ∀ k, N.lookup k = none → M.lookup k = none)
    (hsame : ∀ path v tail h, N.Source base m target path v tail h → M.lookup (path, v) = some h) :
    M.answer base m target = N.answer base m target := by
  cases hn : N.answer base m target with
  | none =>
    rw [answer_eq_first, first_eq_none_iff] at hn ⊢
    exact fun p hp => pick_eq_none_of_le hle (hn p hp)
  | some found =>
    obtain ⟨path, v, hs⟩ := answer_eq_some_iff.mp hn
    exact answer_eq_some_iff.mpr ⟨path, v, hs.of_le hle (hsame _ _ _ _ hs)⟩

theorem lookup_of_remove_le (M : Registry H) (v : Verb) (path : String) :
    ∀ k, M.lookup k = none → (M.apply (.remove v path)).lookup k = none := fun k hk => by
  rw [lookup_apply_remove, hk, ite_self]

theorem lookup_of_add_le (M : Registry H) (v : Verb) (path : String) (h : H) :
    ∀ k, (M.apply (.add v path h)).lookup k = none → M.lookup k = none := fun k hk => by
  rw [lookup_apply_add] at hk
  split at hk
  · cases hk
  · exact hk

/-- A withdrawal does not matter at other paths. -/
theorem pick_remove_of_ne {q : String} (hq : q ≠ Target.trimSlashes path) :
    (M.apply (.remove v path)).pick m q = M.pick m q := by
  have hne : ∀ w : Verb, (q, w) ≠ (Target.trimSlashes path, v) := fun w e =>
    hq (Prod.mk.inj e).1
  rw [pick, lookup_apply_remove, lookup_apply_remove, if_neg (hne _), if_neg (hne _), pick]

/-- Where the registration that is picked is withdrawn, that of all methods is left at most. -/
theorem Picks.pick_remove {p : String} (hp : Target.trimSlashes path = p)
    (hpicks : M.Picks m p v h) :
    (M.apply (.remove v path)).pick m p
      = if v = .exact m then M.lookup (p, .any) else none := by
  rw [pick, lookup_apply_remove, lookup_apply_remove, hp]
  cases hpicks with
  | exact _ => simp
  | any hnone _ => simp [hnone]

/-- The empty path comes behind all others. -/
theorem filter_fallback (base target path : String) :
    (fallback base target).filter (fun p => p.1.length < path.length)
      = if path = "" then [] else fallback base target := by
  unfold fallback
  cases below? base.toList target.toList with
  | none => simp
  | some r =>
    by_cases hpath : path = ""
    · subst hpath
      simp
    · have hpos : 0 < path.length :=
        Nat.pos_of_ne_zero fun e => hpath (String.length_eq_zero_iff.mp e)
      rw [if_neg hpath, Option.elim_some]
      split
      · rfl
      · exact List.filter_cons_of_pos (by simpa using hpos)

/-- **After a withdrawal the next registration in order answers**: that of all methods at the same
path, if it was that of the method itself, and else the next shorter path in front of the target
with a handler for the method, and else the empty path. -/
theorem Source.answer_remove {p : String} (hp : Target.trimSlashes path = p)
    (hs : M.Source base m target p v tail h) :
    (M.apply (.remove v path)).answer base m target
      = ((if v = .exact m then M.lookup (p, .any) else none).map fun g => (tail, g)).or
          ((M.first m ((fronts base target).filter fun q => q.1.length < p.length)).or
            (if p = "" then none else M.first m (fallback base target))) := by
  obtain ⟨⟨before, after, hplaces, hbefore⟩, hpicks⟩ := hs
  have hdesc := pairwise_places base target
  have hafter : (places base target).filter (fun q => q.1.length < p.length) = after :=
    filter_lt_of_pairwise (f := fun q => q.1.length) hdesc hplaces
  have hbehind : (M.apply (.remove v path)).first m after = M.first m after := by
    refine first_congr fun q hq => pick_remove_of_ne fun e => ?_
    rw [← hafter, List.mem_filter, e, hp] at hq
    exact absurd hq.2 (by simp)
  have hroot : M.first m (if p = "" then [] else fallback base target)
      = if p = "" then none else M.first m (fallback base target) := by
    split <;> rfl
  have hnone : (M.apply (.remove v path)).first m before = none :=
    first_eq_none_iff.mpr fun q hq =>
      pick_eq_none_of_le (M.lookup_of_remove_le v path) (hbefore q hq)
  rw [answer_eq_first, hplaces, first_append, hnone, Option.none_or, first_cons, hpicks.pick_remove hp,
    hbehind, ← hafter, places, List.filter_append, filter_fallback, first_append, hroot]

/-- A withdrawal does not matter to what others answer. -/
theorem answer_remove_of_not_source
    (hnot : ∀ tail h, ¬ M.Source base m target (Target.trimSlashes path) v tail h) :
    (M.apply (.remove v path)).answer base m target = M.answer base m target := by
  refine answer_eq_of_le (M.lookup_of_remove_le v path) fun q w tail h hs => ?_
  rw [lookup_apply_remove, if_neg fun e => ?_, hs.picks.lookup_eq]
  obtain ⟨rfl, rfl⟩ := Prod.mk.inj e
  exact hnot tail h hs

/-- **A registration answers, or does not matter.** -/
theorem answer_add (M : Registry H) (base : String) (m : Method) (target : String) (v : Verb)
    (path : String) (h : H) :
    (M.apply (.add v path h)).answer base m target = M.answer base m target ∨
      ∃ tail, (M.apply (.add v path h)).Source base m target (Target.trimSlashes path) v tail h := by
  by_cases hsource : ∃ tail g,
      (M.apply (.add v path h)).Source base m target (Target.trimSlashes path) v tail g
  · obtain ⟨tail, g, hs⟩ := hsource
    have hg := hs.picks.lookup_eq
    rw [lookup_apply_add, if_pos rfl] at hg
    obtain rfl := Option.some.inj hg
    exact Or.inr ⟨tail, hs⟩
  · refine Or.inl (answer_eq_of_le (M.lookup_of_add_le v path h) fun q w tail g hs => ?_).symm
    have hg := hs.picks.lookup_eq
    rwa [lookup_apply_add, if_neg fun e => ?_] at hg
    obtain ⟨rfl, rfl⟩ := Prod.mk.inj e
    exact hsource ⟨tail, g, hs⟩

end Registry

/-! ## Updates after a run -/

theorem lookup_run (base : String) (ops : List (Op H)) (m : Method) (target : String) :
    (run base ops).lookup m target
      = (Registry.run ops).answer (Target.trimSlashes base) m target := by
  rw [lookup_eq_answer (represents_run base ops), base_run]

/-- After any updates every answer comes from a registration. -/
theorem lookup_run_eq_some_iff {base : String} {ops : List (Op H)} {m : Method}
    {target tail : String} {h : H} :
    (run base ops).lookup m target = some (tail, h)
      ↔ ∃ q w, (Registry.run ops).Source (Target.trimSlashes base) m target q w tail h := by
  rw [lookup_run]
  exact Registry.answer_eq_some_iff

/-- One more update. -/
theorem lookup_apply_run (base : String) (ops : List (Op H)) (op : Op H) (m : Method)
    (target : String) :
    ((run base ops).apply op).lookup m target
      = ((Registry.run ops).apply op).answer (Target.trimSlashes base) m target := by
  have hrun := lookup_run base (ops ++ [op]) m target
  rwa [run, Registry.run, List.foldl_append, List.foldl_append] at hrun

/-- **An update matters to the requests that it concerns only.** After any updates below any base
path every answer comes from a registration. A registration changes the answer to a request only if
it is what answers then. A withdrawal changes it only if what was withdrawn answered; then the
registration of all methods at the same path answers, if that of the method itself was withdrawn,
else the next shorter path in front of the target with a handler for the method, else the empty
path, and else nothing. -/
theorem lookup_update (base : String) (ops : List (Op H)) (v : Verb) (path : String) (m : Method)
    (target : String) :
    let s := run base ops
    let M := Registry.run ops
    let b := Target.trimSlashes base
    let p := Target.trimSlashes path
    (∀ tail h, s.lookup m target = some (tail, h) ↔ ∃ q w, M.Source b m target q w tail h) ∧
      (∀ h, (s.add v path h).lookup m target = s.lookup m target ∨
        ∃ tail, (s.add v path h).lookup m target = some (tail, h) ∧
          (M.apply (.add v path h)).Source b m target p v tail h) ∧
      ((∀ tail h, ¬ M.Source b m target p v tail h) →
        (s.remove v path).2.lookup m target = s.lookup m target) ∧
      ∀ tail h, M.Source b m target p v tail h →
        (s.remove v path).2.lookup m target
          = ((if v = .exact m then M.lookup (p, .any) else none).map fun g => (tail, g)).or
              ((M.first m ((fronts b target).filter fun q => q.1.length < p.length)).or
                (if p = "" then none else M.first m (fallback b target))) := by
  intro s M b p
  have hlookup : s.lookup m target = M.answer b m target := lookup_run base ops m target
  have hadd : ∀ h, (s.add v path h).lookup m target
      = (M.apply (.add v path h)).answer b m target := fun h =>
    lookup_apply_run base ops (.add v path h) m target
  have hremove : (s.remove v path).2.lookup m target
      = (M.apply (.remove v path)).answer b m target :=
    lookup_apply_run base ops (.remove v path) m target
  refine ⟨fun tail h => lookup_run_eq_some_iff, fun h => ?_, fun hnot => ?_, fun tail h hs => ?_⟩
  · rw [hadd, hlookup]
    refine (M.answer_add b m target v path h).imp id ?_
    rintro ⟨tail, hs⟩
    exact ⟨tail, Registry.answer_eq_some_iff.mpr ⟨p, v, hs⟩, hs⟩
  · rw [hremove, hlookup, Registry.answer_remove_of_not_source hnot]
  · rw [hremove]
    exact hs.answer_remove rfl

/-- What is withdrawn leaves its requests to the registration of all methods, and that leaves them
to a shorter path; one that does not answer a request may go without it being noticed. -/
theorem lookup_update_withdrawn :
    let ops : List (Op Nat) :=
      [.add .any "" 1, .add .any "/a" 2, .add (.exact .get) "a/b" 3, .add .any "a/b/" 4]
    let s := run "/svc/" ops
    let M := Registry.run ops
    let b := Target.trimSlashes "/svc/"
    (M.Source b .get "/svc/a/b/c?q" "a/b" (.exact .get) "/c?q" 3 ∧
        (s.remove (.exact .get) "/a/b").2.lookup .get "/svc/a/b/c?q" = some ("/c?q", 4)) ∧
      (M.Source b .put "/svc/a/b/c?q" "a/b" .any "/c?q" 4 ∧
        (s.remove .any "/a/b").2.lookup .put "/svc/a/b/c?q" = some ("/b/c?q", 2)) ∧
      (∀ tail h, ¬ M.Source b .get "/svc/a/b/c?q" "a/b" .any tail h) ∧
        (s.remove .any "/a/b").2.lookup .get "/svc/a/b/c?q" = some ("/c?q", 3) := by
  intro ops s M b
  have hplaces : places b "/svc/a/b/c?q"
      = [("a/b/c", "?q")] ++ ("a/b", "/c?q") :: [("a", "/b/c?q"), ("", "/a/b/c?q")] := by decide
  have hget : M.Source b .get "/svc/a/b/c?q" "a/b" (.exact .get) "/c?q" 3 :=
    ⟨⟨_, _, hplaces, by decide⟩, .exact (by decide)⟩
  have hput : M.Source b .put "/svc/a/b/c?q" "a/b" .any "/c?q" 4 :=
    ⟨⟨_, _, hplaces, by decide⟩, .any (by decide) (by decide)⟩
  have hnot : ∀ tail h, ¬ M.Source b .get "/svc/a/b/c?q" "a/b" .any tail h := by
    rintro tail h ⟨-, _ | ⟨hnone, -⟩⟩
    exact absurd hnone (by decide)
  obtain ⟨hsource, -, -, hnext⟩ :=
    lookup_update "/svc/" ops (.exact .get) "/a/b" .get "/svc/a/b/c?q"
  obtain ⟨-, -, -, hnext'⟩ := lookup_update "/svc/" ops .any "/a/b" .put "/svc/a/b/c?q"
  obtain ⟨-, -, hsame, -⟩ := lookup_update "/svc/" ops .any "/a/b" .get "/svc/a/b/c?q"
  refine ⟨⟨hget, (hnext _ _ hget).trans (by decide)⟩, ⟨hput, (hnext' _ _ hput).trans (by decide)⟩,
    hnot, ?_⟩
  exact (hsame hnot).trans ((hsource _ _).mpr ⟨_, _, hget⟩)

end Routing.Store
