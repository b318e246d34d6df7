import DocLint.CommandLine.Arguments
import DocLint.Config.Reading
import DocLint.Report.Human
import DocLint.Report.Machine
import DocLint.Run

/-!
What a command line leads to.

* `loadLayer` reads a configuration file.
* `Invocation.config?` lays the file over the defaults and the options of the
  command line over both: patterns of files to leave out are added, and switches
  can only be turned on.
* `Outcome` is an exit code, the output and what went wrong; `Outcome.of` is the
  outcome of a command line. The code is 0 if nothing is wrong, 1 if there are
  violations and 2 if there is no report, in which case there is no output
  either.
-/

namespace DocLint

/-- The options that a configuration file sets. -/
def loadLayer (fs : FileSystem) (p : Path) : Except Failure Config.Layer :=
  match fs.readText p with
  | .error e => .error (.configUnreadable p e)
  | .ok s =>
    match Config.Layer.parse s with
    | .error e => .error (.configInvalid p e.message)
    | .ok l => .ok l

/-- Lays the options of a command line over a configuration. -/
def ScanOptions.applyTo (o : ScanOptions) (c : Config) : Config :=
  { c with
    root := o.root.getD c.root
    extensions := (o.extensions.map (·.filterMap extension?)).getD c.extensions
    exclude := c.exclude ++ o.exclude
    maxDepth := o.maxDepth.getD c.maxDepth
    followLinks := c.followLinks || o.followLinks
    includeArchive := c.includeArchive || o.includeArchive
    emojiRanges := if o.strict then .strict else c.emojiRanges }

namespace Invocation

/-- The configuration that an invocation runs with. -/
def config? (fs : FileSystem) (i : Invocation) : Except Failure Config :=
  match i.config with
  | none => .ok (i.options.applyTo {})
  | some p =>
    match loadLayer fs p with
    | .error e => .error e
    | .ok l => .ok (i.options.applyTo (l.applyTo {}))

/-- The reports of an invocation. -/
def reports (fs : FileSystem) (i : Invocation) : Except Failure (List Report) :=
  match i.config? fs with
  | .error e => .error e
  | .ok c =>
    match i.command with
    | .check k => (k.run fs c).map ([·])
    | .all => Check.runAll fs c

end Invocation

/-! ### Output -/

/-- Bold text in the color of a code. -/
def inColor (color : Bool) (code : Nat) (s : String) : String :=
  if color then "\x1b[1;" ++ toString code ++ "m" ++ s ++ "\x1b[0m" else s

/-- The code of green. -/
def green : Nat := 32

/-- The code of red. -/
def red : Nat := 31

/-- The number of reports with violations. -/
def failedCount (rs : List Report) : Nat :=
  (rs.filter fun r => !r.ok).length

/-- The line that sums all checks up. -/
def verdictLine (color : Bool) (rs : List Report) : String :=
  if failedCount rs = 0 then inColor color green "All checks passed."
  else inColor color red
    (toString (failedCount rs) ++ " of " ++ toString rs.length ++ " check(s) failed.")

/-- The reports with an empty line between them. -/
def humanReports (verbose : Bool) (rs : List Report) : String :=
  String.intercalate "\n" (rs.map (Report.human verbose))

/-- The output of an invocation. All checks together end in a summary. -/
def render (color : Bool) (i : Invocation) (rs : List Report) : String :=
  match i.format, i.command, rs with
  | .json, .check _, r :: _ => r.json
  | .json, .check _, [] => ""
  | .json, .all, rs => Report.jsonList rs
  | .human, .check _, rs => humanReports i.verbose rs
  | .human, .all, rs => humanReports i.verbose rs ++ "\n" ++ verdictLine color rs ++ "\n"

/-! ### Outcomes -/

/-- Why there is no report. -/
inductive Trouble where
  | usage (fault : Arguments.Fault)
  | fatal (failure : Failure)
  deriving DecidableEq

/-- What a command line leads to. -/
structure Outcome where
  exitCode : Nat
  output : String
  trouble : Option Trouble
  deriving DecidableEq

/-- The line about a failure; its first word is in red if colors are wanted. -/
def Failure.errorLine (color : Bool) (f : Failure) : String :=
  inColor color red "ERROR:" ++ " " ++ f.chain

namespace Outcome

/-- The outcome of a run without trouble. -/
def success (output : String) : Outcome := ⟨0, output, none⟩

/-- The outcome of trouble. -/
def ofTrouble (t : Trouble) : Outcome := ⟨2, "", some t⟩

/-- The outcome of an invocation. -/
def ofInvocation (color : Bool) (fs : FileSystem) (i : Invocation) : Outcome :=
  match i.reports fs with
  | .error e => ofTrouble (.fatal e)
  | .ok rs => ⟨if rs.all Report.ok then 0 else 1, render color i rs, none⟩

/-- The name and the version of the program. -/
def versionText : String := "docs-check 0.3.0\n"

/-- How to use the program. -/
def helpText : String :=
  "Integrity checks for trees of Markdown documentation\n\n" ++
  "Usage: docs-check [OPTIONS] <fences|links|filenames|emoji|all> [ROOT]\n\n" ++
  "Options: -v, --config FILE, --format human|json; behind the command also --root PATH,\n" ++
  "--extensions EXTS, --exclude GLOB, --max-depth N, --follow-links, and for emoji and all\n" ++
  "--include-archive and --strict\n\n" ++
  "Exit codes: 0 = no violations, 1 = violations found, 2 = fatal error.\n"

/-- The outcome of a command line. -/
def of (color : Bool) (fs : FileSystem) (args : List String) : Outcome :=
  match Arguments.parse args with
  | .error e => ofTrouble (.usage e)
  | .ok (.tell .version) => success versionText
  | .ok (.tell .help) => success helpText
  | .ok (.run i) => ofInvocation color fs i

end Outcome

end DocLint
