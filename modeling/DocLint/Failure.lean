import DocLint.FileSystem.Locate
import DocLint.Glob

/-!
The conditions that end a run before there is a report.

* `Failure` is one of them: there is no root to look through, a pattern of files
  to leave out is ill-formed, or a configuration file cannot be read or makes
  no sense. What concerns a single file never ends a run.
* `Failure.message` says it in words, `Failure.cause?` is what it was caused by,
  and `Failure.chain` is the one with the other behind it.
-/

namespace DocLint

/-- The conditions that end a run. -/
inductive Failure where
  | rootNotFound (path : Path)
  | rootNotADirectory (path : Path)
  | rootUnresolvable (path : Path) (cause : FileSystem.Fault)
  | invalidExclude (pattern : String) (cause : Glob.Fault)
  | configUnreadable (path : Path) (cause : FileSystem.Fault)
  | configInvalid (path : Path) (reason : String)
  deriving DecidableEq

namespace Failure

/-- What a failure was caused by, if anything else. -/
def cause? : Failure → Option String
  | rootUnresolvable _ cause => some cause.message
  | invalidExclude _ cause => some cause.message
  | configUnreadable _ cause => some cause.message
  | _ => none

/-- What failed. -/
def subject : Failure → String
  | rootNotFound path => "docs root not found: " ++ path.display
  | rootNotADirectory path => "docs root is not a directory: " ++ path.display
  | rootUnresolvable path cause =>
    "failed to resolve docs root " ++ path.display ++ ": " ++ cause.message
  | invalidExclude pattern cause =>
    "invalid exclude glob pattern '" ++ pattern ++ "': " ++ cause.message
  | configUnreadable path cause =>
    "failed to read config file " ++ path.display ++ ": " ++ cause.message
  | configInvalid path _ => "invalid config file " ++ path.display ++ ": "

/-- A failure in words. -/
def message : Failure → String
  | configInvalid path reason => (configInvalid path reason).subject ++ reason
  | f => f.subject

/-- A failure in words, followed by what it was caused by. -/
def chain (f : Failure) : String :=
  match f.cause? with
  | some cause => f.message ++ ": " ++ cause
  | none => f.message

end Failure

end DocLint
