import SyntaxView.OutputFormat
import SyntaxView.Path

/-!
# Arguments of the command line

The words of a command line are read from left to right, first at the top, then, once a command is named, for that
command. A word that starts with a hyphen gives options: `--name`, `--name=value`, or letters after one hyphen, the last
of which may have its value attached. Other values stand in the next word, which must not look like an option. After
`--` no word is an option. The options for settings and verbosity are known in both places, and the later place wins; an
option may be given once in each.
-/

namespace SyntaxView.CommandLine

/-! ## What can be asked for -/

inductive Action where
  | parse (file : Path) (format : Option OutputFormat) (maxDepth : Option UInt64) (output : Option Path)
    (noDiagnostics : Bool) (arguments : List String)
  | database (file : Path) (format : Option OutputFormat) (maxDepth : Option UInt64)
  | init (force : Bool)
  | config
  deriving DecidableEq, Repr

/-- A well-formed command line. -/
structure Invocation where
  config : Option Path
  verbose : Bool
  action : Action
  deriving DecidableEq, Repr

/-- What a command line comes to. -/
inductive Reading where
  | wrong
  | version
  | help
  | run (invocation : Invocation)
  deriving DecidableEq, Repr

/-! ## Options -/

inductive Flag where
  | config
  | verbose
  | version
  | help
  | format
  | maxDepth
  | output
  | noDiagnostics
  | force
  deriving DecidableEq, Repr

def Flag.takesValue : Flag → Bool
  | .config | .format | .maxDepth | .output => true
  | .verbose | .version | .help | .noDiagnostics | .force => false

/-- The long name and the letter of an option. -/
structure FlagName where
  flag : Flag
  long : String
  letter : Option Char

def sharedFlags : List FlagName :=
  [⟨.config, "config", some 'c'⟩, ⟨.verbose, "verbose", some 'v'⟩, ⟨.help, "help", some 'h'⟩]

def topFlags : List FlagName := sharedFlags ++ [⟨.version, "version", some 'V'⟩]

def viewFlags : List FlagName := [⟨.format, "format", some 'f'⟩, ⟨.maxDepth, "max-depth", some 'd'⟩]

def parseFlags : List FlagName :=
  sharedFlags ++ viewFlags ++ [⟨.output, "output", some 'o'⟩, ⟨.noDiagnostics, "no-diagnostics", none⟩]

def databaseFlags : List FlagName := sharedFlags ++ viewFlags

def initFlags : List FlagName := sharedFlags ++ [⟨.force, "force", some 'f'⟩]

/-- What has been given in one place. -/
structure Given where
  config : Option Path
  verbose : Bool
  format : Option OutputFormat
  maxDepth : Option UInt64
  output : Option Path
  noDiagnostics : Bool
  force : Bool
  /-- Words that are no options. -/
  words : List String
  /-- Words after `--`. -/
  trailing : List String

namespace Given

def nothing : Given := ⟨none, false, none, none, none, false, false, [], []⟩

/-- A path is not empty. -/
def path? (s : String) : Option Path := if s = "" then none else some ⟨s⟩

/-- A number of 64 bits, which a plus sign may precede. -/
def number? (s : String) : Option UInt64 :=
  let ds :=
    match s.toList with
    | '+' :: ds => ds
    | ds => ds
  let n := ds.foldl (fun n d => n * 10 + (d.toNat - '0'.toNat)) 0
  if ds.isEmpty || !ds.all Char.isDigit || 0x10000000000000000 ≤ n then none else some (UInt64.ofNat n)

/-- Set what is not set yet. -/
def once {α : Type} (old new : Option α) : Option (Option α) :=
  match old, new with
  | none, some a => some (some a)
  | _, _ => none

/-- Give an option that takes a value. -/
def value? (g : Given) (flag : Flag) (v : String) : Option Given :=
  match flag with
  | .config => (once g.config (path? v)).map fun p => { g with config := p }
  | .format => (once g.format (OutputFormat.ofName? false v)).map fun f => { g with format := f }
  | .maxDepth => (once g.maxDepth (number? v)).map fun n => { g with maxDepth := n }
  | .output => (once g.output (path? v)).map fun p => { g with output := p }
  | _ => none

/-- Give an option that takes no value. -/
def switch? (g : Given) (flag : Flag) : Option Given :=
  match flag with
  | .verbose => if g.verbose then none else some { g with verbose := true }
  | .noDiagnostics => if g.noDiagnostics then none else some { g with noDiagnostics := true }
  | .force => if g.force then none else some { g with force := true }
  | _ => none

end Given

/-! ## Reading words -/

/-- How words are read in one place. -/
structure Grammar where
  flags : List FlagName
  /-- Words that name commands. -/
  commands : List String
  /-- How many words it takes. -/
  words : Nat
  /-- Words after `--` are kept apart. -/
  trailing : Bool

/-- What reading the words of one place comes to. -/
inductive Scan where
  | wrong
  | version
  | help
  | done (given : Given)
  /-- A command was named. -/
  | command (name : String) (given : Given) (rest : List String)

/-- What one word of options comes to. -/
inductive Step where
  | stop (result : Scan)
  | given (given : Given)
  /-- The value of an option stands in the next word. -/
  | pending (flag : Flag) (given : Given)

/-- Give an option without a value. -/
def switchStep (g : Given) (flag : Flag) : Step :=
  match flag with
  | .version => .stop .version
  | .help => .stop .help
  | flag =>
    match g.switch? flag with
    | some g => .given g
    | none => .stop .wrong

def valueStep (g : Given) (flag : Flag) (v : List Char) : Step :=
  match g.value? flag (String.ofList v) with
  | some g => .given g
  | none => .stop .wrong

/-- Read the letters after one hyphen. -/
def letters (flags : List FlagName) (g : Given) : List Char → Step
  | [] => .given g
  | c :: cs =>
    match flags.find? fun f => f.letter == some c with
    | none => .stop .wrong
    | some f =>
      if f.flag.takesValue then
        match cs with
        | [] => .pending f.flag g
        | '=' :: v => valueStep g f.flag v
        | v => valueStep g f.flag v
      else
        match switchStep g f.flag with
        | .given g => letters flags g cs
        | step => step

/-- Read the name after two hyphens, with a value after an equals sign. -/
def longName (flags : List FlagName) (g : Given) (cs : List Char) : Step :=
  let name := cs.takeWhile (· != '=')
  match flags.find? fun f => f.long.toList == name with
  | none => .stop .wrong
  | some f =>
    match cs.dropWhile (· != '='), f.flag.takesValue with
    | _ :: v, true => valueStep g f.flag v
    | _ :: _, false => .stop .wrong
    | [], true => .pending f.flag g
    | [], false => switchStep g f.flag

/-- The word gives options; a lone hyphen does not. -/
def looksLikeOption (word : String) : Bool :=
  match word.toList with
  | '-' :: _ :: _ => true
  | _ => false

/-- Take a word that is no option. -/
def addWord (grammar : Grammar) (g : Given) (word : String) : Option Given :=
  if g.words.length < grammar.words then some { g with words := g.words ++ [word] } else none

/-- Take the words after `--`. -/
def addTrailing (grammar : Grammar) (g : Given) : List String → Scan
  | words =>
    if grammar.trailing then .done { g with trailing := words }
    else if g.words.length + words.length ≤ grammar.words then .done { g with words := g.words ++ words }
    else .wrong

/-- Read the words of one place; `pending` is an option whose value is to come. -/
def scan (grammar : Grammar) : Option Flag → Given → List String → Scan
  | none, g, [] => .done g
  | some _, _, [] => .wrong
  | some flag, g, word :: rest =>
    if looksLikeOption word then .wrong
    else
      match g.value? flag word with
      | some g => scan grammar none g rest
      | none => .wrong
  | none, g, word :: rest =>
    let step : Step :=
      match word.toList with
      | '-' :: '-' :: cs => longName grammar.flags g cs
      | '-' :: cs => letters grammar.flags g cs
      | _ => .stop .wrong
    if word = "--" then addTrailing grammar g rest
    else if looksLikeOption word then
      match step with
      | .stop result => result
      | .given g => scan grammar none g rest
      | .pending flag g => scan grammar (some flag) g rest
    else if grammar.commands.contains word then .command word g rest
    else
      match addWord grammar g word with
      | some g => scan grammar none g rest
      | none => .wrong

/-! ## Command lines -/

/-- The names of commands. -/
def commandNames : List String := ["parse", "db", "init", "config", "help"]

def topGrammar : Grammar := ⟨topFlags, commandNames, 0, false⟩

/-- How the words of a command are read. -/
def commandGrammar? : String → Option Grammar
  | "parse" => some ⟨parseFlags, [], 1, true⟩
  | "db" => some ⟨databaseFlags, [], 1, false⟩
  | "init" => some ⟨initFlags, [], 0, false⟩
  | "config" => some ⟨sharedFlags, [], 0, false⟩
  | _ => none

/-- The action of a command with what has been given for it. -/
def action? (name : String) (g : Given) : Option Action :=
  let file := g.words.head?.bind Given.path?
  match name with
  | "parse" => file.map fun file => .parse file g.format g.maxDepth g.output g.noDiagnostics g.trailing
  | "db" => file.map fun file => .database file g.format g.maxDepth
  | "init" => some (.init g.force)
  | "config" => some .config
  | _ => none

/-- Read the words after `help`: nothing, or the name of one command. -/
def readHelp : List String → Reading
  | [] => .help
  | [word] => if commandNames.contains word then .help else .wrong
  | _ => .wrong

/-- Read the words of a command after what has been given at the top. -/
def readCommand (name : String) (top : Given) (rest : List String) : Reading :=
  match commandGrammar? name with
  | none => if name = "help" then readHelp rest else .wrong
  | some grammar =>
    match scan grammar none .nothing rest with
    | .wrong => .wrong
    | .command .. => .wrong
    | .version => .version
    | .help => .help
    | .done g =>
      match action? name g with
      | some action => .run ⟨g.config.orElse fun _ => top.config, top.verbose || g.verbose, action⟩
      | none => .wrong

/-- Read the words of a command line after the name of the program. -/
def read (words : List String) : Reading :=
  match scan topGrammar none .nothing words with
  | .wrong => .wrong
  -- A command has to be named.
  | .done _ => .wrong
  | .version => .version
  | .help => .help
  | .command name g rest => readCommand name g rest

end SyntaxView.CommandLine
