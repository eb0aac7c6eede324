import Routing.Dict
import Routing.Fault
import Routing.Text.Split
import Routing.Text.Utf8

/-!
# File trees

The files and directories that a program sees. A path is walked name by name, from the working
directory or, if it starts with a slash, from the root; `.` stays and `..` goes up, above the
working directory to the root. A walk goes through directories only.

* `read_write`, `readText_write`: what was written to a path is read from it.
* `walk_set`: a walk that arrives does so after a file is put at a place without a directory.
-/

namespace Routing

/-- What stands at a place of a file tree. -/
inductive FileTree.Node where
  /-- A file. -/
  | file (content : Bytes)
  /-- A directory. -/
  | directory

/-- Files and directories by their places. -/
structure FileTree where
  /-- The nodes, but for the working directory and the root. -/
  nodes : Dict FileTree.Node

namespace FileTree

/-- The names that lead to a node, from the working directory or, after a first name that is a
slash, from the root. -/
abbrev Place := List String

/-- The place of the root. -/
def root : Place := ["/"]

/-- The tree without files. -/
def empty : FileTree := ⟨Dict.empty⟩

/-- The text that keys a place. -/
def key (p : Place) : String :=
  "/".intercalate p

/-- What stands at a place. -/
def node? (t : FileTree) (p : Place) : Option Node :=
  if p = [] || p = root then some .directory else t.nodes.get? (key p)

/-- Whether a directory stands at a place. -/
def isDirectory (t : FileTree) (p : Place) : Bool :=
  match t.node? p with
  | some .directory => true
  | _ => false

/-- The tree with a node at a place. -/
def set (t : FileTree) (p : Place) (n : Node) : FileTree :=
  ⟨t.nodes.set (key p) n⟩

/-- The place above. -/
def above (p : Place) : Place :=
  if p = [] || p = root then root else p.dropLast

/-- Where the walk along a path starts. -/
def start (path : String) : Place :=
  match path.toList with
  | '/' :: _ => root
  | _ => []

/-- How many bytes a name may have. -/
def nameLimit : Nat := 255

/-- How many bytes a path may have. -/
def pathLimit : Nat := 4095

/-- The place that names lead to from another place. -/
def walk (t : FileTree) (here : Place) : List String → Except Fault Place
  | [] => .ok here
  | name :: r =>
    if !t.isDirectory here then .error .notDirectory
    else if name = "" || name = "." then t.walk here r
    else if name = ".." then t.walk (above here) r
    else if nameLimit < name.utf8ByteSize then .error .nameTooLong
    else
      match t.node? (here ++ [name]) with
      | none => .error .missing
      | some _ => t.walk (here ++ [name]) r

/-- The names of a path, if there may be a file at it. -/
def names (path : String) : Except Fault (List String) :=
  if path = "" then .error .missing
  else if path.toList.contains '\x00' then .error .zeroInName
  else if pathLimit < path.utf8ByteSize then .error .nameTooLong
  else .ok (Text.splitText '/' path)

/-- The node at a path. -/
def stat (t : FileTree) (path : String) : Except Fault Node :=
  match names path with
  | .error f => .error f
  | .ok ns =>
    match t.walk (start path) ns with
    | .error f => .error f
    | .ok p =>
      match t.node? p with
      | some n => .ok n
      | none => .error .missing

/-- Whether there is a node at a path. -/
def holds (t : FileTree) (path : String) : Bool :=
  match t.stat path with
  | .ok _ => true
  | .error _ => false

/-- The content of the file at a path. -/
def read (t : FileTree) (path : String) : Except Fault Bytes :=
  match t.stat path with
  | .ok (.file content) => .ok content
  | .ok .directory => .error .isDirectory
  | .error f => .error f

/-- The content of the file at a path, which must be text. -/
def readText (t : FileTree) (path : String) : Except Fault String :=
  match t.read path with
  | .error f => .error f
  | .ok content =>
    match Text.Utf8.decode? content with
    | some s => .ok s
    | none => .error .notText

/-- The names without the empty ones at the end. -/
def dropEmptyEnd (ns : List String) : List String :=
  (ns.reverse.dropWhile fun n => n = "").reverse

/-- The tree with a file at a path, in place of a file that is there. -/
def write (t : FileTree) (path : String) (content : Bytes) : Except Fault FileTree :=
  match names path with
  | .error f => .error f
  | .ok ns =>
    match (dropEmptyEnd ns).reverse with
    | [] => .error .isDirectory
    | name :: front =>
      match t.walk (start path) front.reverse with
      | .error f => .error f
      | .ok here =>
        if !t.isDirectory here then .error .notDirectory
        else if name = "." || name = ".." || (dropEmptyEnd ns).length < ns.length
            || t.isDirectory (here ++ [name]) then .error .isDirectory
        else if nameLimit < name.utf8ByteSize then .error .nameTooLong
        else .ok (t.set (here ++ [name]) (.file content))

/-- The tree with directories at all places on a walk along names. -/
def makeAlong (t : FileTree) (here : Place) : List String → Except Fault FileTree
  | [] => .ok t
  | name :: r =>
    if name = "" || name = "." then t.makeAlong here r
    else if name = ".." then t.makeAlong (above here) r
    else if nameLimit < name.utf8ByteSize then .error .nameTooLong
    else
      match t.node? (here ++ [name]) with
      | some .directory => t.makeAlong (here ++ [name]) r
      | some (.file _) => .error (if r.isEmpty then .taken else .notDirectory)
      | none => (t.set (here ++ [name]) .directory).makeAlong (here ++ [name]) r

/-- The tree with a directory at a path, and with those that lead there. -/
def makeDirectories (t : FileTree) (path : String) : Except Fault FileTree :=
  if path = "" then .ok t
  else
    match names path with
    | .error f => .error f
    | .ok ns => t.makeAlong (start path) (dropEmptyEnd ns)

/-- The path of the directory that a path leads into. -/
def directoryOf (path : String) : String :=
  let ns := dropEmptyEnd (Text.splitText '/' path)
  match dropEmptyEnd ns.dropLast with
  | [] => if start path = root then "/" else ""
  | front => "/".intercalate front

/-- The path of a name below a directory. -/
def join (directory name : String) : String :=
  if directory = "" || directory.toList.getLast? = some '/' then directory ++ name
  else directory ++ "/" ++ name

/-- Outside the working directory and the root, a node that was put at a place stands there. -/
theorem node?_set_self {t : FileTree} {p : Place} {n : Node} (h : p ≠ []) (hr : p ≠ root) :
    (t.set p n).node? p = some n := by
  simp [node?, set, h, hr]

/-- A node elsewhere stays. -/
theorem node?_set_of_key_ne {t : FileTree} {p q : Place} {n : Node} (h : key q ≠ key p) :
    (t.set p n).node? q = t.node? q := by
  simp [node?, set, h]

/-- Places of one key hold one node, the working directory and the root apart. -/
theorem node?_congr {t : FileTree} {p q : Place} (hp : ¬(p = [] ∨ p = root))
    (hq : ¬(q = [] ∨ q = root)) (h : key q = key p) : t.node? q = t.node? p := by
  simp [node?, hp, hq, h]

/-- The working directory and the root are directories. -/
theorem isDirectory_of_start {t : FileTree} {p : Place} (h : p = [] ∨ p = root) :
    t.isDirectory p = true := by
  simp [isDirectory, node?, h]

/-- A directory stays where a node is put in place of none or of a file. -/
theorem isDirectory_set {t : FileTree} {p q : Place} {n : Node} (hp : t.isDirectory p = false)
    (hq : t.isDirectory q = true) : (t.set p n).isDirectory q = true := by
  by_cases hs : q = [] ∨ q = root
  · exact isDirectory_of_start hs
  · have hs' : ¬(p = [] ∨ p = root) := fun h => by simp [isDirectory_of_start h] at hp
    have hk : key q ≠ key p := fun hk => by
      rw [isDirectory, node?_congr hs' hs hk, ← isDirectory] at hq
      simp [hq] at hp
    rw [isDirectory, node?_set_of_key_ne hk]
    exact hq

/-- No node goes away. -/
theorem isSome_node?_set {t : FileTree} {p q : Place} {n : Node} (h : (t.node? q).isSome) :
    ((t.set p n).node? q).isSome := by
  by_cases hk : key q = key p
  · by_cases hs : q = [] ∨ q = root
    · simp [node?, hs]
    · simp [node?, set, hs, hk]
  · rwa [node?_set_of_key_ne hk]

/-- A walk that arrives does so after a node is put in place of none or of a file. -/
theorem walk_set {t : FileTree} {p : Place} {n : Node} (hp : t.isDirectory p = false)
    {ns : List String} {here q : Place} (h : t.walk here ns = .ok q) :
    (t.set p n).walk here ns = .ok q := by
  induction ns generalizing here with
  | nil => exact h
  | cons name r ih =>
    unfold walk at h ⊢
    cases hd : t.isDirectory here with
    | false => simp [hd] at h
    | true =>
      simp only [hd, isDirectory_set hp hd, Bool.not_true, Bool.false_eq_true, if_false] at h ⊢
      split at h
      · rename_i h1; rw [if_pos h1]; exact ih h
      · rename_i h1; rw [if_neg h1]
        split at h
        · rename_i h2; rw [if_pos h2]; exact ih h
        · rename_i h2; rw [if_neg h2]
          split at h
          · cases h
          · rename_i h3; rw [if_neg h3]
            split at h
            · cases h
            · rename_i m hm
              have hsome : ((t.set p n).node? (here ++ [name])).isSome :=
                isSome_node?_set (by rw [hm]; rfl)
              obtain ⟨m', hm'⟩ := Option.isSome_iff_exists.1 hsome
              rw [hm']
              exact ih h

/-- A walk along a last name is the walk along those before it and a step. -/
theorem walk_append (t : FileTree) (here : Place) (ns ms : List String) :
    t.walk here (ns ++ ms)
      = match t.walk here ns with
        | .ok p => t.walk p ms
        | .error f => .error f := by
  induction ns generalizing here with
  | nil => rfl
  | cons name r ih =>
    simp only [List.cons_append, walk]
    split
    · rfl
    split
    · exact ih _
    split
    · exact ih _
    split
    · rfl
    split
    · rfl
    · exact ih _

/-- If no name is dropped, all stay. -/
theorem dropEmptyEnd_of_length {ns : List String} (h : ¬(dropEmptyEnd ns).length < ns.length) :
    dropEmptyEnd ns = ns := by
  have h1 : dropEmptyEnd ns <+: ns := by
    rw [dropEmptyEnd, ← List.reverse_suffix, List.reverse_reverse]
    exact List.dropWhile_suffix _
  exact h1.eq_of_length_le (Nat.le_of_not_lt h)

/-- What was written to a path is read from it. -/
theorem read_write {t u : FileTree} {path : String} {content : Bytes}
    (h : t.write path content = .ok u) : u.read path = .ok content := by
  unfold write at h
  split at h
  · cases h
  · rename_i ns hns
    split at h
    · cases h
    · rename_i name front hf
      split at h
      · cases h
      · rename_i here hw
        split at h
        · cases h
        rename_i hd
        split at h
        · cases h
        rename_i hx
        split at h
        · cases h
        rename_i hl
        injection h with h
        subst h
        simp only [Bool.or_eq_true, decide_eq_true_eq, not_or] at hx
        obtain ⟨⟨⟨h1, h2⟩, h3⟩, h4⟩ := hx
        have he : ns = front.reverse ++ [name] := by
          have := congrArg List.reverse hf
          rw [List.reverse_reverse, dropEmptyEnd_of_length h3] at this
          simpa using this
        have hp : t.isDirectory (here ++ [name]) = false := by simpa using h4
        have hn : name ≠ "" := by
          have := List.head?_dropWhile_not (fun n => decide (n = "")) ns.reverse
          rw [dropEmptyEnd, List.reverse_reverse] at hf
          simpa [hf] using this
        have hs : ¬(here ++ [name] = [] ∨ here ++ [name] = root) := fun h => by
          simp [isDirectory_of_start h] at hp
        have hnode := node?_set_self (t := t) (n := .file content) (fun h => hs (.inl h))
          (fun h => hs (.inr h))
        have hwalk : (t.set (here ++ [name]) (.file content)).walk (start path) ns
            = .ok (here ++ [name]) := by
          rw [he, walk_append, walk_set hp hw]
          have hd' : t.isDirectory here = true := by simpa using hd
          simp [walk, isDirectory_set hp hd', h1, h2, hn, hl, hnode]
        simp [read, stat, hns, hwalk, hnode]

/-- A text that was written to a path is read from it. -/
theorem readText_write {t u : FileTree} {path text : String}
    (h : t.write path (Text.Utf8.encode text) = .ok u) : u.readText path = .ok text := by
  unfold readText
  rw [read_write h]
  simp only [Text.Utf8.decode?_encode]

/-- Where something is read there is a node. -/
theorem holds_of_read {t : FileTree} {path : String} {content : Bytes}
    (h : t.read path = .ok content) : t.holds path = true := by
  unfold read at h
  unfold holds
  cases hstat : t.stat path with
  | ok n => rfl
  | error f =>
    rw [hstat] at h
    exact nomatch h

end FileTree

end Routing
