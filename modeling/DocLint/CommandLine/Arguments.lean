import DocLint.Config.Basic
import DocLint.Report.Basic

/-!
Command-line arguments.

* `Invocation` is what a command line asks for: one check or all of them, with
  the options given.
* `Arguments.parse` reads the arguments. A command and then its options are
  wanted; verbosity, configuration file and format may be given on either side
  of the command, and behind it they count more.
* `Arguments.Fault` says why a command line cannot be read.
-/

namespace DocLint

/-- What to run. -/
inductive Command where
  | check (c : Check)
  | all
  deriving DecidableEq, Repr

/-- The name of a command. -/
def Command.name : Command → String
  | check c => c.name
  | all => "all"

/-- The command of a name. -/
def Command.ofName? (s : String) : Option Command :=
  if s = "all" then some .all else (Check.ofName? s).map .check

/-- Whether a command looks for emoji. -/
def Command.hasEmoji : Command → Bool
  | check c => c == .emoji
  | all => true

/-- How to write reports. -/
inductive ReportFormat where
  | human
  | json
  deriving DecidableEq, Repr

/-- The format of a name. -/
def ReportFormat.ofName? : String → Option ReportFormat
  | "human" => some human
  | "json" => some json
  | _ => none

/-- The options that a command line sets. -/
structure ScanOptions where
  root : Option Path := none
  extensions : Option (List String) := none
  exclude : List String := []
  maxDepth : Option Nat := none
  followLinks : Bool := false
  includeArchive : Bool := false
  strict : Bool := false
  deriving DecidableEq

/-- What a command line asks for. -/
structure Invocation where
  command : Command
  verbose : Bool
  config : Option Path
  format : ReportFormat
  options : ScanOptions
  deriving DecidableEq

namespace Arguments

/-- The reasons why a command line cannot be read. -/
inductive Fault where
  | missingCommand
  | unknown (argument : String)
  | missingValue (argument : String)
  | invalidValue (argument value : String)
  | repeated (argument : String)
  | conflict
  deriving DecidableEq, Repr

/-- A reason in words. -/
def Fault.message : Fault → String
  | missingCommand => "a command is required: fences, links, filenames, emoji or all"
  | unknown a => "unexpected argument '" ++ a ++ "'"
  | missingValue a => "a value is required for '" ++ a ++ "'"
  | invalidValue a v => "invalid value '" ++ v ++ "' for '" ++ a ++ "'"
  | repeated a => "the argument '" ++ a ++ "' cannot be used multiple times"
  | conflict => "the root cannot be given twice"

/-- What the program tells about itself. -/
inductive Notice where
  | version
  | help
  deriving DecidableEq, Repr

/-- What a command line comes to. -/
inductive Request where
  | tell (n : Notice)
  | run (i : Invocation)
  deriving DecidableEq

/-! ### The options -/

/-- The options of a command line, and the argument that is none. -/
inductive Key where
  | verbose
  | config
  | format
  | root
  | extensions
  | exclude
  | maxDepth
  | followLinks
  | includeArchive
  | strict
  | help
  | version
  | place
  deriving DecidableEq, Repr

/-- Where an argument stands: before the command, or behind it. -/
abbrev Level := Option Command

/-- The options that may stand anywhere. -/
def commonKeys : List (String × Key) :=
  [("verbose", .verbose), ("config", .config), ("format", .format), ("help", .help)]

/-- The options behind a command. -/
def scanKeys : List (String × Key) :=
  [("root", .root), ("docs-root", .root), ("extensions", .extensions), ("exclude", .exclude),
    ("max-depth", .maxDepth), ("follow-links", .followLinks)]

/-- The options behind a command that looks for emoji. -/
def emojiKeys : List (String × Key) :=
  [("include-archive", .includeArchive), ("strict", .strict)]

/-- The options at a level. -/
def keysAt : Level → List (String × Key)
  | none => commonKeys ++ [("version", .version)]
  | some c => commonKeys ++ scanKeys ++ if c.hasEmoji then emojiKeys else []

/-- The option of a name. -/
def longKey? (level : Level) (name : String) : Option Key :=
  ((keysAt level).find? fun k => k.1 == name).map (·.2)

/-- The option of a letter. -/
def shortKey? (level : Level) : Char → Option Key
  | 'v' => some .verbose
  | 'h' => some .help
  | 'V' => if level.isNone then some .version else none
  | _ => none

namespace Key

/-- How an option is called in a complaint about it. -/
def label : Key → String
  | verbose => "--verbose"
  | config => "--config"
  | format => "--format"
  | root => "--root"
  | extensions => "--extensions"
  | exclude => "--exclude"
  | maxDepth => "--max-depth"
  | followLinks => "--follow-links"
  | includeArchive => "--include-archive"
  | strict => "--strict"
  | help => "--help"
  | version => "--version"
  | place => "[ROOT]"

/-- Whether an option has a value. -/
def hasValue : Key → Bool
  | config | format | root | extensions | exclude | maxDepth | place => true
  | _ => false

/-- Whether an option may be given more than once. -/
def isRepeatable : Key → Bool
  | verbose | extensions | exclude => true
  | _ => false

/-- What an option asks for that ends the reading. -/
def notice? : Key → Option Notice
  | help => some .help
  | version => some .version
  | _ => none

/-- The number that decimal digits write, a plus sign before them allowed. -/
def depth? (s : String) : Option Nat :=
  let ds := match s.toList with
    | '+' :: ds => ds
    | ds => ds
  if ds.isEmpty || !ds.all Char.isDigit then none
  else
    let n := ds.foldl (fun n c => 10 * n + (c.toNat - 0x30)) 0
    if n < Config.numberBound then some n else none

/-- Whether an option can have a value. -/
def accepts (k : Key) (value : String) : Bool :=
  match k with
  | config | root | place => value != ""
  | format => (ReportFormat.ofName? value).isSome
  | maxDepth => (depth? value).isSome
  | _ => true

end Key

/-! ### Reading one level -/

/-- An option that was given, with its value if it has one. -/
abbrev Given := Key × String

/-- How far a level is read. -/
structure Reading where
  /-- The options so far, last one first. -/
  given : List Given := []
  /-- An option whose value is to come. -/
  pending : Option { k : Key // k.hasValue = true } := none

/-- What one argument comes to. -/
inductive Step where
  | next (r : Reading)
  | stop (n : Notice)
  /-- Nothing behind it is an option. -/
  | literal
  /-- A command ends the level. -/
  | command (c : Command)
  /-- The word that asks for help on what follows. -/
  | help

namespace Reading

/-- Adds an option, with its value if it has one. -/
def give (r : Reading) (k : Key) (value : String) : Except Fault Reading :=
  if k.hasValue && !k.accepts value then .error (.invalidValue k.label value)
  else if !k.isRepeatable && r.given.any (·.1 == k) then .error (.repeated k.label)
  else .ok ⟨(k, value) :: r.given, none⟩

/-- Adds an option without a value, unless it ends the reading. -/
def switch (r : Reading) (k : Key) : Except Fault Step :=
  match k.notice? with
  | some n => .ok (.stop n)
  | none => (r.give k "").map .next

/-- Takes an argument that is no option for the root, which stands behind a command. -/
def place (r : Reading) (level : Level) (a : String) : Except Fault Reading :=
  if level.isNone then .error (.unknown a) else r.give .place a

/-- Reads the letters of a short argument. -/
def letters (r : Reading) (level : Level) : List Char → Except Fault Step
  | [] => .ok (.next r)
  | c :: cs =>
    match shortKey? level c with
    | none => .error (.unknown (String.ofList ['-', c]))
    | some k =>
      match r.switch k with
      | .ok (.next r) => r.letters level cs
      | other => other

/-- Reads an argument that begins with two hyphens; `cs` is what follows them. -/
def long (r : Reading) (level : Level) (a : String) (cs : List Char) : Except Fault Step :=
  match longKey? level (String.ofList (cs.takeWhile (· ≠ '='))) with
  | none => .error (.unknown a)
  | some k =>
    match cs.dropWhile (· ≠ '=') with
    | [] => if h : k.hasValue = true then .ok (.next ⟨r.given, some ⟨k, h⟩⟩) else r.switch k
    | _ :: value =>
      if k.hasValue then (r.give k (String.ofList value)).map .next else .error (.unknown a)

/-- Reads a word. -/
def word (r : Reading) (level : Level) (a : String) : Except Fault Step :=
  match level, Command.ofName? a with
  | none, some c => .ok (.command c)
  | none, none => if a = "help" then .ok .help else .error (.unknown a)
  | some _, _ => (r.place level a).map .next

/-- Reads one argument. A command ends the level before it, but not where a value
is to come. -/
def step (r : Reading) (level : Level) (a : String) : Except Fault Step :=
  match r.pending, a.toList with
  | some k, '-' :: _ :: _ => .error (.missingValue k.val.label)
  | some k, _ => (r.give k a).map .next
  | none, ['-', '-'] => .ok .literal
  | none, '-' :: '-' :: cs => r.long level a cs
  | none, '-' :: c :: cs => r.letters level (c :: cs)
  | none, _ => r.word level a

end Reading

/-- What one level comes to: options, and the command that ends the level with
what follows it. -/
inductive LevelResult where
  | stop (n : Notice)
  | done (given : List Given) (next : Option (Command × List String))

/-- Reads arguments that are no options. -/
def readPlaces (level : Level) (r : Reading) : List String → Except Fault LevelResult
  | [] => .ok (.done r.given.reverse none)
  | a :: rest =>
    match r.place level a with
    | .error e => .error e
    | .ok r => readPlaces level r rest

/-- Reads what help is asked for: at most one command, or help itself. -/
def readHelp : List String → Except Fault LevelResult
  | [] => .ok (.stop .help)
  | a :: rest =>
    if rest.isEmpty && (a == "help" || (Command.ofName? a).isSome) then .ok (.stop .help)
    else .error (.unknown "help")

/-- Reads the arguments of one level. -/
def readLevel (level : Level) (r : Reading) : List String → Except Fault LevelResult
  | [] =>
    match r.pending with
    | some k => .error (.missingValue k.val.label)
    | none => .ok (.done r.given.reverse none)
  | a :: rest =>
    match r.step level a with
    | .error e => .error e
    | .ok (.next r) => readLevel level r rest
    | .ok (.stop n) => .ok (.stop n)
    | .ok .literal => readPlaces level r rest
    | .ok (.command c) => .ok (.done r.given.reverse (some (c, rest)))
    | .ok .help => readHelp rest

/-! ### The whole command line -/

/-- The values given for an option, in order. -/
def valuesOf (given : List Given) (k : Key) : List String :=
  (given.filter (·.1 == k)).map (·.2)

/-- Whether an option is given. -/
def isGiven (given : List Given) (k : Key) : Bool :=
  given.any (·.1 == k)

/-- The pieces of a text between commas. -/
def commaPieces (s : String) : List String :=
  (Text.pieces ',' s.toList).map String.ofList

/-- The options that are set behind a command. -/
def scanOptions (given : List Given) : ScanOptions where
  root := ((valuesOf given .root).head?.or (valuesOf given .place).head?).map Path.ofString
  extensions :=
    if isGiven given .extensions then some ((valuesOf given .extensions).flatMap commaPieces)
    else none
  exclude := valuesOf given .exclude
  maxDepth := (valuesOf given .maxDepth).head?.bind Key.depth?
  followLinks := isGiven given .followLinks
  includeArchive := isGiven given .includeArchive
  strict := isGiven given .strict

/-- What the options before and behind a command ask for. -/
def invocation (before : List Given) (c : Command) (behind : List Given) : Invocation where
  command := c
  verbose := isGiven before .verbose || isGiven behind .verbose
  config := ((valuesOf behind .config).head?.or (valuesOf before .config).head?).map Path.ofString
  format :=
    (((valuesOf behind .format).head?.or (valuesOf before .format).head?).bind
      ReportFormat.ofName?).getD .human
  options := scanOptions behind

/-- Reads a command line. -/
def parse (args : List String) : Except Fault Request :=
  match readLevel none {} args with
  | .error e => .error e
  | .ok (.stop n) => .ok (.tell n)
  | .ok (.done _ none) => .error .missingCommand
  | .ok (.done before (some (c, rest))) =>
    match readLevel (some c) {} rest with
    | .error e => .error e
    | .ok (.stop n) => .ok (.tell n)
    | .ok (.done behind _) =>
      if isGiven behind .root && isGiven behind .place then .error .conflict
      else .ok (.run (invocation before c behind))

end Arguments

end DocLint
