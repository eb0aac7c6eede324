import Routing.Toml.Scalar

/-!
# Reading of TOML lines

A file is a list of lines, each a header or an entry; blank lines and comments are passed over. The
readers take a number that bounds how often they go on, for which the length of the file is always
enough.
-/

namespace Routing.Toml

/-- A line of a file. -/
inductive Line where
  /-- A header of a table, or of an item of a list of tables. -/
  | header (path : List String) (isItem : Bool)
  /-- A key with its value. -/
  | entry (path : List String) (v : Value)

/-! ## Blanks -/

/-- The text after its blanks. -/
def skipBlanks (s : List Char) : List Char :=
  s.dropWhile Quoted.isBlank

/-- Whether a character may stand in a comment. -/
def isCommentChar (c : Char) : Bool :=
  c = '\t' || 0x20 ≤ c.toNat

/-- The text after its blanks, comments and line ends. Fails if a comment does not end with its
line. -/
def skipEmpty (inComment : Bool) : List Char → Option (List Char)
  | [] => some []
  | c :: r =>
    if inComment then
      if c = '\n' then skipEmpty false r
      else if isCommentChar c then skipEmpty true r
      else none
    else if Quoted.isBlank c || c = '\n' then skipEmpty false r
    else if c = '#' then skipEmpty true r
    else some (c :: r)

/-- The text after a line end. -/
def afterLineEnd? : List Char → Option (List Char)
  | [] => some []
  | '\n' :: r => some r
  | _ => none

/-- The text after the rest of a line, which holds nothing but blanks and a comment. -/
def afterLine? (s : List Char) : Option (List Char) :=
  match skipBlanks s with
  | '#' :: r => afterLineEnd? (r.dropWhile isCommentChar)
  | t => afterLineEnd? t

/-! ## Keys -/

/-- A text after its first quote, on one line. -/
def readOneLine (q : Char) (escapes : Bool) (s : List Char) : Option (String × List Char) :=
  match Quoted.read q escapes s with
  | some (false, t, r) => some (String.ofList t, r)
  | _ => none

/-- A key and the rest. -/
def readKey (s : List Char) : Option (String × List Char) :=
  match s with
  | '"' :: r => readOneLine '"' true r
  | '\'' :: r => readOneLine '\'' false r
  | _ =>
    match takeWord s with
    | ([], _) => none
    | (w, r) => some (String.ofList w, r)

/-- Keys with points between them, and the rest after the blanks. -/
def readPath : Nat → List Char → Option (List String × List Char)
  | 0, _ => none
  | fuel + 1, s =>
    match readKey s with
    | none => none
    | some (k, r) =>
      match skipBlanks r with
      | '.' :: t => (readPath fuel (skipBlanks t)).map fun (ks, u) => (k :: ks, u)
      | t => some ([k], t)

/-- Keys with points between them and an equals sign, and the rest after the blanks. -/
def readAssigned (fuel : Nat) (s : List Char) : Option (List String × List Char) :=
  match readPath fuel s with
  | some (ks, '=' :: r) => some (ks, skipBlanks r)
  | _ => none

/-! ## Entries -/

/-- Changes the entries of the table at a key, which is added at the end if there is none. Fails if
the key has a value that was not written by keys with points. -/
def changeTable (k : String) (f : Entries → Option Entries) : Entries → Option Entries
  | [] => (f []).map fun sub => [(k, .table .points sub)]
  | e :: r =>
    if e.1 = k then
      match e.2 with
      | .table .points sub => (f sub).map fun sub => (k, .table .points sub) :: r
      | _ => none
    else (changeTable k f r).map (e :: ·)

/-- Adds a value at a key that may lead into tables. A last key is not looked up: it may repeat. -/
def addEntry (v : Value) : List String → Entries → Option Entries
  | [], _ => none
  | [k], es => some (es ++ [(k, v)])
  | k :: ks, es => changeTable k (addEntry v ks) es

/-! ## Values -/

mutual

/-- A value and the rest. -/
def readValue : Nat → List Char → Option (Value × List Char)
  | 0, _ => none
  | fuel + 1, s =>
    match s with
    | '"' :: r => (Quoted.read '"' true r).map fun (_, t, u) => (.text (String.ofList t), u)
    | '\'' :: r => (Quoted.read '\'' false r).map fun (_, t, u) => (.text (String.ofList t), u)
    | '[' :: r => (readItems fuel r).map fun (vs, t) => (.list vs, t)
    | '{' :: r =>
      match skipBlanks r with
      | '}' :: t => some (.table .braces [], t)
      | t => (readMembers fuel [] t).map fun (es, u) => (.table .braces es, u)
    | _ => readScalar s

/-- The items of a list up to its bracket, and the rest. -/
def readItems : Nat → List Char → Option (List Value × List Char)
  | 0, _ => none
  | fuel + 1, s =>
    match skipEmpty false s with
    | none => none
    | some (']' :: r) => some ([], r)
    | some t =>
      match readValue fuel t with
      | none => none
      | some (v, u) =>
        match skipEmpty false u with
        | some (',' :: r) => (readItems fuel r).map fun (vs, w) => (v :: vs, w)
        | some (']' :: r) => some ([v], r)
        | _ => none

/-- The entries of a table after those that were read, up to its brace, and the rest. -/
def readMembers : Nat → Entries → List Char → Option (Entries × List Char)
  | 0, _, _ => none
  | fuel + 1, es, s =>
    match readAssigned fuel s with
    | none => none
    | some (path, r) =>
      match readValue fuel r with
      | none => none
      | some (v, t) =>
        match addEntry v path es with
        | none => none
        | some es =>
          match skipBlanks t with
          | '}' :: u => some (es, u)
          | ',' :: u => readMembers fuel es (skipBlanks u)
          | _ => none

end

/-! ## Lines -/

/-- A header after its brackets, and the lines after it. -/
def readHeader (fuel : Nat) (isItem : Bool) (s : List Char) : Option (Line × List Char) :=
  match readPath fuel (skipBlanks s), isItem with
  | some (path, ']' :: ']' :: r), true => (afterLine? r).map fun t => (.header path true, t)
  | some (path, ']' :: r), false => (afterLine? r).map fun t => (.header path false, t)
  | _, _ => none

/-- A key with its value, and the lines after it. -/
def readEntry (fuel : Nat) (s : List Char) : Option (Line × List Char) :=
  match readAssigned fuel s with
  | none => none
  | some (path, r) =>
    match readValue fuel r with
    | none => none
    | some (v, t) => (afterLine? t).map fun u => (.entry path v, u)

/-- A line, and the lines after it. -/
def readLine (fuel : Nat) (s : List Char) : Option (Line × List Char) :=
  match s with
  | '[' :: '[' :: r => readHeader fuel true r
  | '[' :: r => readHeader fuel false r
  | _ => readEntry fuel s

/-- All lines. -/
def readLines : Nat → List Char → Option (List Line)
  | 0, _ => none
  | fuel + 1, s =>
    match skipEmpty false s with
    | none => none
    | some [] => some []
    | some t =>
      match readLine fuel t with
      | none => none
      | some (l, r) => (readLines fuel r).map (l :: ·)

/-- A text with line feeds in place of its pairs of a carriage return and a line feed. -/
def unifyLineEnds : List Char → List Char
  | '\r' :: '\n' :: r => '\n' :: unifyLineEnds r
  | c :: r => c :: unifyLineEnds r
  | [] => []

/-- A text without the mark of its byte order. -/
def dropMark : List Char → List Char
  | '\uFEFF' :: r => r
  | s => s

/-- The lines of a text. -/
def Line.ofText? (text : String) : Option (List Line) :=
  let s := dropMark (unifyLineEnds text.toList)
  readLines (s.length + 1) s

end Routing.Toml
