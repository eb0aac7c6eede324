import Routing.Text.Split

/-!
# The command line

The program takes three options with a value, each at most once, and two flags that ask for a text
only. A value follows its option as the next word or, after an equals sign or in the case of a
letter at once, in the same word. Words are read from the left, and the first flag or fault counts;
that an option has no value, or comes again, is found at the end only.
-/

namespace Routing.CommandLine

/-- An option with a value. -/
inductive Key where
  /-- The configuration file. -/
  | config
  /-- The port to listen at. -/
  | port
  /-- The address to listen at. -/
  | address
deriving DecidableEq

/-- What a word names. -/
inductive Name where
  /-- An option. -/
  | key (k : Key)
  /-- The flag that asks for help. -/
  | help
  /-- The flag that asks for the version. -/
  | version

/-- The name with a letter. -/
def nameOfLetter? (c : Char) : Option Name :=
  if c = 'c' then some (.key .config)
  else if c = 'p' then some (.key .port)
  else if c = 'a' then some (.key .address)
  else if c = 'h' then some .help
  else if c = 'V' then some .version
  else none

/-- The name with a word. -/
def nameOfWord? (s : List Char) : Option Name :=
  match String.ofList s with
  | "config" => some (.key .config)
  | "port" => some (.key .port)
  | "address" => some (.key .address)
  | "help" => some .help
  | "version" => some .version
  | _ => none

/-- The values of the options. -/
structure Options where
  /-- The configuration file. -/
  config : Option String := none
  /-- The port to listen at. -/
  port : Option String := none
  /-- The address to listen at. -/
  address : Option String := none
deriving DecidableEq

/-- What a command line asks for. -/
inductive Invocation where
  /-- To start the service. -/
  | start (options : Options)
  /-- The help text. -/
  | help
  /-- The version. -/
  | version
  /-- Nothing: it is faulty. -/
  | misuse
deriving DecidableEq

/-- How far the words were read. -/
structure Progress where
  /-- The option that waits for its value. -/
  pending : Option Key := none
  /-- Whether an option went without a value. -/
  isFaulty : Bool := false
  /-- The options with their values. -/
  found : List (Key × String) := []

namespace Progress

/-- Gives up waiting for a value. -/
def settle (p : Progress) : Progress :=
  { p with pending := none, isFaulty := p.isFaulty || p.pending.isSome }

/-- Adds an option, with its value or waiting for it. -/
def add (p : Progress) (k : Key) : Option (List Char) → Progress
  | none => { p with pending := some k }
  | some v =>
    { p with found := p.found ++ [(k, String.ofList (Text.trimStart (fun c => c = '=') v))] }

/-- The value of an option. -/
def value? (p : Progress) (k : Key) : Option String :=
  p.found.lookup k

/-- Whether an option comes more than once. -/
def repeats (p : Progress) : Bool :=
  [Key.config, .port, .address].any fun k => 1 < p.found.countP fun e => e.1 = k

/-- What the words ask for that were read. -/
def finish (p : Progress) : Invocation :=
  if p.settle.isFaulty || p.repeats then .misuse
  else .start ⟨p.value? .config, p.value? .port, p.value? .address⟩

end Progress

/-- Whether a character is a dash. -/
def isDash (c : Char) : Bool :=
  c = '-'

/-- The name of a word that starts with a dash, and what stands after it in the word. -/
def split? (word : List Char) : Option (Name × Option (List Char)) :=
  let s := Text.trimStart isDash word
  match word with
  | '-' :: '-' :: _ =>
    (nameOfWord? (s.takeWhile fun c => c ≠ '=')).map fun n =>
      match s.dropWhile fun c => c ≠ '=' with
      | _ :: v => (n, some v)
      | [] => (n, none)
  | _ =>
    match s with
    | [] => none
    | c :: v => (nameOfLetter? c).map fun n => (n, if v.isEmpty then none else some v)

/-- Reads words. -/
def scan (p : Progress) : List String → Invocation
  | [] => p.finish
  | word :: rest =>
    let cs := word.toList
    if cs = ['-', '-'] then if rest.isEmpty then p.finish else .misuse
    else if cs.head?.any isDash && cs ≠ ['-'] then
      match split? cs with
      | none => .misuse
      | some (.help, _) => .help
      | some (.version, _) => .version
      | some (.key k, v) => scan (p.settle.add k v) rest
    else
      match p.pending with
      | none => .misuse
      | some k => scan { p with pending := none, found := p.found ++ [(k, word)] } rest

/-- What a command line asks for. -/
def parse (words : List String) : Invocation :=
  scan {} words

/-- The name and version of the program. -/
def versionText : String :=
  "pathway 0.1.0"

/-- The text about the program and its options. -/
def helpText : String :=
  versionText ++ "\nThe Pathway Team\nDemo REST service on top of the pathway router.\n\n"
    ++ "USAGE:\n    pathway [OPTIONS]\n\n"
    ++ "FLAGS:\n    -h, --help       Prints help information\n"
    ++ "    -V, --version    Prints version information\n\n"
    ++ "OPTIONS:\n    -a, --address <address>    Address to bind the server to\n"
    ++ "    -c, --config <FILE>        Sets a custom configuration file\n"
    ++ "    -p, --port <port>          Port to start the server on"

end Routing.CommandLine
