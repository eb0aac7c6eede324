import Mathlib.Data.List.Infix
import Mathlib.Data.List.MinMax
import Routing.Proofs.Store.Registry

/-!
# The longest registered prefix wins

`Registry.answer` says what a request finds without a tree: of the prefixes of the path below the
base path that end with a segment and are registered for the method, the longest, and else what is
registered at the empty path. The search of the store walks down its nodes segment by segment; it
finds exactly that.

* `walk_sound`, `walk_longest`: the walk stops at a node that has a handler for the method, and no
  such node is further down.
* `lookup_eq_answer`: a store that represents a registry answers from it.
* `run_refines_registry`: after any updates a store is the finite map that they leave behind.
-/

namespace Routing.Store

variable {H : Type}

/-! ## The answer of a registry -/

/-- What a target leaves below a base path: all of it if there is no base path, and else what
follows the base path, which must stop at a boundary; slashes in front of it do not count. -/
def below? (base target : List Char) : Option (List Char) :=
  let t := target.dropWhile fun c => c = '/'
  if base = [] then some target
  else if base <+: t ∧ Target.atBoundary (t.drop base.length) = true then
    some (t.drop base.length)
  else none

/-- Of a target that is a base path and what comes behind it, that is left. -/
theorem below?_append_self {base r : List Char} (hbase : Text.trim Target.isSlash base = base)
    (hr : Target.atBoundary r = true) : below? base (base ++ r) = some r := by
  unfold below?
  by_cases hnil : base = []
  · rw [if_pos hnil, hnil, List.nil_append]
  · have hdrop : ((base ++ r).dropWhile fun c => c = '/') = base ++ r := by
      cases base with
      | nil => exact absurd rfl hnil
      | cons c base =>
        have hc := Text.head?_trim Target.isSlash (c :: base) c (by rw [hbase]; rfl)
        exact List.dropWhile_cons_of_neg (by simpa [Target.isSlash] using hc)
    rw [if_neg hnil]
    simp only [hdrop]
    rw [List.drop_left, if_pos ⟨List.prefix_append _ _, hr⟩]

theorem dropSlash_eq_nil_iff {r : List Char} : dropSlash r = [] ↔ r = [] ∨ r = ['/'] := by
  cases r with
  | nil => simp [dropSlash]
  | cons c r =>
    by_cases hc : c = '/'
    · subst hc
      simp [dropSlash]
    · simp [dropSlash, hc]

namespace Registry

/-- A prefix `c` of `p` that ends with a segment, has no empty segment, and is registered for the
method. -/
structure Candidate (M : Registry H) (m : Method) (p c : List Char) : Prop where
  nonempty : c ≠ []
  boundary : Target.atBoundary (p.drop c.length) = true
  plain : Target.Plain c
  segments : [] ∉ Text.split '/' c
  registered : (M.pick m (String.ofList c)).isSome = true

instance (M : Registry H) (m : Method) (p : List Char) : DecidablePred (M.Candidate m p) :=
  fun c => decidable_of_iff
    (c ≠ [] ∧ Target.atBoundary (p.drop c.length) = true ∧ Target.Plain c ∧
      [] ∉ Text.split '/' c ∧ (M.pick m (String.ofList c)).isSome = true)
    ⟨fun ⟨h1, h2, h3, h4, h5⟩ => ⟨h1, h2, h3, h4, h5⟩,
      fun ⟨h1, h2, h3, h4, h5⟩ => ⟨h1, h2, h3, h4, h5⟩⟩

/-- The longest candidate. -/
def longest (M : Registry H) (m : Method) (p : List Char) : Option (List Char) :=
  (p.inits.filter (M.Candidate m p)).argmax List.length

/-- **The answer of a registry** to a method and a target, with the tail of the target. -/
def answer (M : Registry H) (base : String) (m : Method) (target : String) :
    Option (String × H) :=
  (below? base.toList target.toList).bind fun r =>
    let p := dropSlash r
    match M.longest m p with
    | some c => (M.pick m (String.ofList c)).map fun h => (String.ofList (p.drop c.length), h)
    | none => if p = [] then none else (M.pick m "").map fun h => (String.ofList r, h)

end Registry

/-! ## The walk -/

theorem walk_cons_of_root? {m : Method} {seg : String} (hseg : seg ≠ "")
    {t : Forest String (Handlers H)} {hs : Handlers H} {cs : Forest String (Handlers H)}
    (hroot : t.root? seg = some (hs, cs)) (rest : List String) :
    walk m (seg :: rest) t = (walk m rest cs).or ((hs.select m).map fun h => (rest, h)) := by
  simp only [walk, if_neg hseg, hroot]
  cases walk m rest cs <;> rfl

/-- A walk that finds something goes through a root. -/
theorem exists_root?_of_walk {m : Method} {seg : String} {rest : List String}
    {t : Forest String (Handlers H)} {found : List String × H}
    (hw : walk m (seg :: rest) t = some found) :
    seg ≠ "" ∧ ∃ hs cs, t.root? seg = some (hs, cs) := by
  unfold walk at hw
  split at hw
  · exact absurd hw (by simp)
  · rename_i hseg
    cases hroot : t.root? seg with
    | none =>
      rw [hroot] at hw
      exact absurd hw (by simp)
    | some node => exact ⟨hseg, node.1, node.2, rfl⟩

/-- A node with a handler is below a root. -/
theorem exists_root?_of_select {m : Method} {t : Forest String (Handlers H)} {k : String}
    {ks : List String} {h : H} (hv : (t.valueD Handlers.none k ks).select m = some h) :
    ∃ hs cs, t.root? k = some (hs, cs) := by
  cases hroot : t.root? k with
  | none =>
    rw [Forest.valueD_of_root?_eq_none _ hroot] at hv
    exact absurd hv (by simp [Handlers.select])
  | some node => exact ⟨node.1, node.2, rfl⟩

/-- **The walk stops at a handler**: the node of the segments that it has used has one. -/
theorem walk_sound {m : Method} {segs : List String} {t : Forest String (Handlers H)}
    {rest : List String} {h : H} (hw : walk m segs t = some (rest, h)) :
    ∃ k ks, segs = k :: ks ++ rest ∧ "" ∉ k :: ks ∧
      (t.valueD Handlers.none k ks).select m = some h := by
  induction segs generalizing t with
  | nil => exact absurd hw (by simp [walk])
  | cons seg tl ih =>
    obtain ⟨hseg, hs, cs, hroot⟩ := exists_root?_of_walk hw
    rw [walk_cons_of_root? hseg hroot, Option.or_eq_some_iff] at hw
    rcases hw with hw | ⟨-, hw⟩
    · obtain ⟨k, ks, rfl, hne, hv⟩ := ih hw
      refine ⟨seg, k :: ks, rfl, ?_, ?_⟩
      · rw [List.mem_cons, not_or]
        exact ⟨Ne.symm hseg, hne⟩
      · rw [Forest.valueD_cons_of_root? _ hroot]
        exact hv
    · obtain ⟨h', hsel, he⟩ := Option.map_eq_some_iff.mp hw
      obtain ⟨rfl, rfl⟩ := Prod.mk.inj he
      refine ⟨seg, [], rfl, by simpa using Ne.symm hseg, ?_⟩
      rw [Forest.valueD_nil_of_root? _ hroot]
      exact hsel

/-- **No handler is further down**: the walk gets at least as far as any node with a handler. -/
theorem walk_longest {m : Method} {t : Forest String (Handlers H)} {k : String}
    {ks : List String} {h : H} (hne : "" ∉ k :: ks)
    (hv : (t.valueD Handlers.none k ks).select m = some h) (rest : List String) :
    ∃ rest' h', walk m (k :: ks ++ rest) t = some (rest', h') ∧ rest'.length ≤ rest.length := by
  induction ks generalizing t k with
  | nil =>
    obtain ⟨hs, cs, hroot⟩ := exists_root?_of_select hv
    rw [Forest.valueD_nil_of_root? _ hroot] at hv
    rw [List.cons_append, walk_cons_of_root? (fun e => hne (by simp [e])) hroot]
    cases hw : walk m ([] ++ rest) cs with
    | none => exact ⟨rest, h, by rw [hv]; rfl, le_refl _⟩
    | some found =>
      obtain ⟨j, js, hsplit, -, -⟩ := walk_sound hw
      refine ⟨found.1, found.2, rfl, ?_⟩
      rw [List.nil_append] at hsplit
      rw [hsplit, List.length_append]
      omega
  | cons j js ih =>
    obtain ⟨hs, cs, hroot⟩ := exists_root?_of_select hv
    rw [Forest.valueD_cons_of_root? _ hroot] at hv
    obtain ⟨rest', h', hw, hle⟩ := ih (fun e => hne (List.mem_cons_of_mem _ e)) hv
    refine ⟨rest', h', ?_, hle⟩
    rw [List.cons_append, walk_cons_of_root? (fun e => hne (by simp [e])) hroot, hw]
    rfl

/-! ## Candidates are nodes on the path -/

variable {s : Store H} {M : Registry H}

theorem Registry.longest_eq_some_iff {m : Method} {p c : List Char} :
    M.longest m p = some c ↔
      c <+: p ∧ M.Candidate m p c ∧ ∀ d, d <+: p → M.Candidate m p d → d.length ≤ c.length := by
  unfold Registry.longest
  rw [List.argmax_eq_some_iff]
  simp only [List.mem_filter, List.mem_inits, decide_eq_true_eq]
  constructor
  · rintro ⟨⟨hc, hcand⟩, hmax, -⟩
    exact ⟨hc, hcand, fun d hd hdc => hmax d ⟨hd, hdc⟩⟩
  · rintro ⟨hc, hcand, hmax⟩
    refine ⟨⟨hc, hcand⟩, fun d hd => hmax d hd.1 hd.2, fun d hd hle => ?_⟩
    -- prefixes of one length are equal
    have hlen : c.length = d.length := le_antisymm hle (hmax d hd.1 hd.2)
    rw [(List.prefix_of_prefix_length_le hc hd.1 hle).eq_of_length hlen]

theorem Registry.longest_eq_none_iff {m : Method} {p : List Char} :
    M.longest m p = none ↔ ∀ c, c <+: p → ¬ M.Candidate m p c := by
  unfold Registry.longest
  rw [List.argmax_eq_none, List.filter_eq_nil_iff]
  simp only [List.mem_inits, decide_eq_true_eq]

/-- An empty path has no candidate. -/
theorem Registry.longest_nil (M : Registry H) (m : Method) : M.longest m [] = none :=
  longest_eq_none_iff.mpr fun _ hpre hc => hc.nonempty (List.prefix_nil.mp hpre)

theorem Registry.answer_of_outside {base target : String} {m : Method}
    (hr : below? base.toList target.toList = none) : M.answer base m target = none := by
  rw [answer, hr, Option.bind_none]

theorem Registry.answer_of_longest {base target : String} {m : Method} {r c : List Char}
    (hr : below? base.toList target.toList = some r) (hc : M.longest m (dropSlash r) = some c) :
    M.answer base m target = (M.pick m (String.ofList c)).map fun h =>
      (String.ofList ((dropSlash r).drop c.length), h) := by
  simp only [answer, hr, Option.bind_some, hc]

theorem Registry.answer_of_no_longest {base target : String} {m : Method} {r : List Char}
    (hr : below? base.toList target.toList = some r) (hc : M.longest m (dropSlash r) = none) :
    M.answer base m target = if dropSlash r = [] then none else
      (M.pick m "").map fun h => (String.ofList r, h) := by
  simp only [answer, hr, Option.bind_some, hc]

/-- The texts of the segments of the path of `p`. -/
def pathSegments (p : List Char) : List String :=
  (Text.split '/' (Target.pathChars p)).map String.ofList

/-- **A candidate is a node on the path** with a handler for the method. -/
theorem exists_node_of_candidate (hs : Represents s M) {m : Method} {p c : List Char}
    (hcp : c <+: p) (hc : M.Candidate m p c) :
    ∃ k ks rest h, (Text.split '/' c).map String.ofList = k :: ks ∧
      pathSegments p = k :: ks ++ rest ∧ "" ∉ k :: ks ∧
      (s.nodes.valueD Handlers.none k ks).select m = some h := by
  obtain ⟨t, rfl⟩ := hcp
  have ht : Target.atBoundary t = true := by
    have := hc.boundary
    rwa [List.drop_left] at this
  obtain ⟨qs, hsplit, -⟩ := Target.split_path_of_append hc.plain ht
  obtain ⟨h, hh⟩ := Option.isSome_iff_exists.mp hc.registered
  cases hk : (Text.split '/' c).map String.ofList with
  | nil => exact absurd (List.map_eq_nil_iff.mp hk) (Text.split_ne_nil _ _)
  | cons k ks =>
    refine ⟨k, ks, qs.map String.ofList, h, rfl, ?_, ?_, ?_⟩
    · rw [pathSegments, hsplit, List.map_append, hk]
    · rw [← hk]
      intro e
      obtain ⟨q, hq, he⟩ := List.mem_map.mp e
      rw [String.ofList_eq_empty_iff.mp he] at hq
      exact hc.segments hq
    · rw [select_of_represents hs m hc.segments hk, hh]

/-- **A node on the path is a candidate**, and the rest of the path is its tail. -/
theorem exists_candidate_of_node (hs : Represents s M) {m : Method} {p : List Char}
    {k : String} {ks rest : List String} {h : H} (hp : pathSegments p = k :: ks ++ rest)
    (hne : "" ∉ k :: ks) (hv : (s.nodes.valueD Handlers.none k ks).select m = some h) :
    ∃ c, c <+: p ∧ M.Candidate m p c ∧ M.pick m (String.ofList c) = some h ∧
      (Text.split '/' c).map String.ofList = k :: ks ∧
      tailText rest (Target.suffixChars p) = String.ofList (p.drop c.length) := by
  obtain ⟨ps, qs, hsplit, hps, hqs⟩ := List.map_eq_append_iff.mp hp
  have hpne : ps ≠ [] := fun e => by
    rw [e] at hps
    exact absurd hps (by simp)
  obtain ⟨happ, hplain, hback, hbound⟩ := Target.append_of_split_path hsplit hpne
  have hsegs : [] ∉ Text.split '/' (Text.join '/' ps) := by
    rw [hback]
    intro e
    exact hne (hps ▸ List.mem_map.mpr ⟨[], e, rfl⟩)
  have hkey : (Text.split '/' (Text.join '/' ps)).map String.ofList = k :: ks := by
    rw [hback, hps]
  have hpick : M.pick m (String.ofList (Text.join '/' ps)) = some h := by
    rw [← select_of_represents hs m hsegs hkey, hv]
  have hdrop : p.drop (Text.join '/' ps).length
      = (qs.flatMap fun q => '/' :: q) ++ Target.suffixChars p := by
    conv => lhs; rw [happ]
    rw [List.drop_left]
  refine ⟨Text.join '/' ps, ⟨_, happ.symm⟩, ⟨?_, ?_, hplain, hsegs, ?_⟩, hpick, hkey, ?_⟩
  · intro e
    rw [e] at hsegs
    exact hsegs (by simp [Text.split])
  · rw [hdrop]
    exact hbound
  · rw [hpick]
    rfl
  · rw [tailText, hdrop, ← hqs, List.flatMap_map]
    simp only [String.toList_ofList]

/-- More segments of one path are a longer text. -/
theorem length_le_of_segments {c d : List Char} {rest rest' : List String}
    (h : (Text.split '/' c).map String.ofList ++ rest
      = (Text.split '/' d).map String.ofList ++ rest')
    (hle : rest.length ≤ rest'.length) : d.length ≤ c.length := by
  obtain ⟨more, hmore⟩ : (Text.split '/' d).map String.ofList <+:
      (Text.split '/' c).map String.ofList := by
    refine List.prefix_of_prefix_length_le ⟨rest', h.symm⟩ ⟨rest, rfl⟩ ?_
    have := congrArg List.length h
    rw [List.length_append, List.length_append] at this
    omega
  obtain ⟨ps, qs, hc, hps, -⟩ := List.map_eq_append_iff.mp hmore.symm
  have hd : ps = Text.split '/' d :=
    List.map_injective_iff.mpr (fun _ _ => String.ofList_injective) hps
  have hjoin : c = d ++ qs.flatMap fun q => '/' :: q := by
    rw [← Text.join_split '/' c, hc, hd, Text.join_append '/' (Text.split_ne_nil '/' d),
      Text.join_split]
  rw [hjoin, List.length_append]
  omega

/-- **The walk finds the longest candidate**, and its tail. -/
theorem longest_of_walk (hs : Represents s M) {m : Method} {p : List Char} {rest : List String}
    {h : H} (hw : walk m (pathSegments p) s.nodes = some (rest, h)) :
    ∃ c, M.longest m p = some c ∧ M.pick m (String.ofList c) = some h ∧
      tailText rest (Target.suffixChars p) = String.ofList (p.drop c.length) := by
  obtain ⟨k, ks, hp, hne, hv⟩ := walk_sound hw
  obtain ⟨c, hcp, hc, hpick, hkey, htail⟩ := exists_candidate_of_node hs hp hne hv
  refine ⟨c, Registry.longest_eq_some_iff.mpr ⟨hcp, hc, fun d hdp hd => ?_⟩, hpick, htail⟩
  obtain ⟨j, js, rest', h', hkey', hp', hne', hv'⟩ := exists_node_of_candidate hs hdp hd
  obtain ⟨r, g, hw', hle⟩ := walk_longest hne' hv' rest'
  rw [← hp', hw] at hw'
  obtain ⟨rfl, rfl⟩ := Prod.mk.inj (Option.some.inj hw')
  exact length_le_of_segments (by rw [hkey, hkey', ← hp, ← hp']) hle

/-- **The walk finds nothing iff there is no candidate.** -/
theorem longest_eq_none_of_walk (hs : Represents s M) {m : Method} {p : List Char}
    (hw : walk m (pathSegments p) s.nodes = none) : M.longest m p = none := by
  refine Registry.longest_eq_none_iff.mpr fun c hcp hc => ?_
  obtain ⟨k, ks, rest, h, -, hp, hne, hv⟩ := exists_node_of_candidate hs hcp hc
  obtain ⟨r, g, hw', -⟩ := walk_longest hne hv rest
  rw [← hp, hw] at hw'
  exact absurd hw' (by simp)

/-! ## The base path -/

theorem afterFront?_eq_some_iff {front t r : List Char} :
    Text.afterFront? front t = some r ↔ t = front ++ r :=
  ⟨Text.eq_append_of_afterFront?, fun h => h ▸ Text.afterFront?_append front r⟩

theorem belowBase_eq_below? (base : String) (target : List Char) :
    belowBase base target = below? base.toList target := by
  unfold belowBase below?
  by_cases hb : base = ""
  · simp [hb]
  · have hb' : base.toList ≠ [] := fun e => hb (String.toList_eq_nil_iff.mp e)
    rw [if_neg hb, if_neg hb']
    have htrim : Text.trimStart Target.isSlash target = target.dropWhile fun c => c = '/' := rfl
    rw [htrim]
    cases hf : Text.afterFront? base.toList (target.dropWhile fun c => c = '/') with
    | none =>
      have hnot : ¬ base.toList <+: target.dropWhile fun c => c = '/' := by
        rintro ⟨r, hr⟩
        rw [afterFront?_eq_some_iff.mpr hr.symm] at hf
        exact absurd hf (by simp)
      rw [if_neg fun h => hnot h.1]
    | some r =>
      have hr := afterFront?_eq_some_iff.mp hf
      rw [hr, List.drop_left]
      cases r with
      | nil => simp [Target.atBoundary]
      | cons c r => simp [Target.atBoundary, List.prefix_append]

/-- What answers for a request that no path is in front of. -/
theorem fallback_eq (hs : Represents s M) (m : Method) (r : List Char) :
    (match s.nodes.root? "" with
      | none => none
      | some (hs, _) => (hs.select m).map fun h => (String.ofList r, h))
      = (M.pick m "").map fun h => (String.ofList r, h) := by
  rw [← select_empty_of_represents hs]
  cases hroot : s.nodes.root? "" with
  | none => rw [Forest.valueD_of_root?_eq_none _ hroot]; rfl
  | some node => rw [Forest.valueD_nil_of_root? _ hroot]

/-- **A store answers from its registry.** -/
theorem lookup_eq_answer (hs : Represents s M) (m : Method) (target : String) :
    s.lookup m target = M.answer s.base m target := by
  unfold lookup Registry.answer
  rw [belowBase_eq_below?]
  cases below? s.base.toList target.toList with
  | none => rfl
  | some r =>
    simp only [Option.bind_some, List.isEmpty_iff]
    cases hw : walk m (pathSegments (dropSlash r)) s.nodes with
    | none =>
      rw [longest_eq_none_of_walk hs hw]
      unfold pathSegments at hw
      rw [hw]
      exact congrArg (ite (dropSlash r = []) none) (fallback_eq hs m r)
    | some found =>
      obtain ⟨c, hc, hpick, htail⟩ := longest_of_walk hs hw
      rw [hc]
      unfold pathSegments at hw
      simp only [hw, hpick, htail, Option.map_some]

-- a longer path wins, a base path may come after any slashes, and a fragment stays in the tail
example :
    (Registry.run [.add .any "a" 1, .add (.exact .get) "/a/b/" 2, .add .any "" 3]).answer
      "svc" .get "//svc/a/b#" = some ("#", 2) := by decide

/-! ## Runs -/

/-- **A store is the finite map that its updates leave behind.** After any updates below any base
path, withdrawing hands out what is registered, the store is empty iff nothing is registered, and a
request finds the answer of the registry. -/
theorem run_refines_registry (base : String) (ops : List (Op H)) :
    (∀ v path, ((run base ops).remove v path).1
        = (Registry.run ops).lookup (Target.trimSlashes path, v)) ∧
      ((run base ops).isEmpty = true ↔ Registry.run ops = ∅) ∧
      ∀ m target, (run base ops).lookup m target
        = (Registry.run ops).answer (Target.trimSlashes base) m target := by
  have hrun := represents_run base ops
  refine ⟨fun v path => hrun.get?_eq v path, isEmpty_iff hrun, fun m target => ?_⟩
  rw [lookup_eq_answer hrun, base_run]

end Routing.Store
