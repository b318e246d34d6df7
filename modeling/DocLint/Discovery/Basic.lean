import DocLint.Config.Basic
import DocLint.Discovery.Root
import DocLint.FileSystem.Walk
import DocLint.Violation

/-!
The files that a check looks at.

* `Selection` says which files: all, or those whose name ends in one of the
  extensions, upper and lower case alike.
* `Discovery` are the files that are found, with what stood in the way of
  finding others.
* `Discovery.judge` judges what a walk comes by: only files count; the
  selection and the excluded patterns leave some out, and a file that lies
  outside the root once links are resolved is an error.
* `Discovery.find` walks from a root and judges every visit. Nothing but an
  ill-formed pattern makes it fail.
-/

namespace DocLint

/-- The directories that are never entered. -/
def skippedDirectories : List String := [".git", "node_modules"]

/-- Which files to look at. -/
inductive Selection where
  | withExtensions (extensions : List String)
  | all
  deriving DecidableEq

/-- Whether a file of a name is selected. -/
def Selection.selects (s : Selection) (n : FileName) : Bool :=
  match s with
  | all => true
  | withExtensions es =>
    let name := Text.lowercase n.text
    es.any fun e => e.toList.isSuffixOf name

/-- A file to look at. -/
structure SourceFile where
  path : Path
  /-- The path as seen from the root. -/
  relative : Path
  deriving DecidableEq

/-- What a walk has found. -/
structure Discovery where
  files : List SourceFile
  errors : List (Path × Violation)
  deriving DecidableEq

namespace Discovery

/-! ### Patterns of files to leave out -/

/-- Reads patterns; the first ill-formed one is a failure. -/
def patterns : List String → Except Failure (List (List Glob.Item))
  | [] => .ok []
  | p :: ps =>
    match Glob.parse p with
    | .error e => .error (.invalidExclude p e)
    | .ok items =>
      match patterns ps with
      | .error e => .error e
      | .ok rest => .ok (items :: rest)

/-- Whether one of the patterns matches the relative path or the name. -/
def isExcluded (patterns : List (List Glob.Item)) (relative : Path) (n : FileName) : Bool :=
  patterns.any fun items => Glob.matchesText items relative.text || Glob.matchesText items n.text

/-! ### Walking -/

/-- Whether to enter a directory: not one of the skipped ones, nor the archive
right below the root if there is one to leave out. -/
def enters (archive : Option String) (depth : Nat) (n : FileName) : Bool :=
  !skippedDirectories.any n.isWritten && !(depth == 1 && archive.any n.isWritten)

/-- How to walk through the documentation. -/
def rules (c : Config) (skipArchive : Bool) : WalkRules where
  maxDepth := c.maxDepth
  followLinks := c.followLinks
  enters := enters (if skipArchive then some c.archiveDir else none)

/-- The message of a visit that failed. -/
def traversalMessage (cause : WalkFault) : String :=
  "directory traversal error: " ++ cause.message

/-- The message of a file outside the root. -/
def outsideMessage (place : Location) : String :=
  "path resolves outside the docs root: " ++ (FileSystem.pathOf place).display

/-- The message of a file that cannot be read. -/
def readMessage (cause : FileSystem.Fault) : String :=
  "error reading file: " ++ cause.message

/-- What is made of a visit: an error, a file to look at, or nothing. -/
inductive Verdict where
  | error (relative : Path) (violation : Violation)
  | file (f : SourceFile)
  | nothing
  deriving DecidableEq

/-- Judges a selected file that no pattern leaves out. -/
def judgeFile (fs : FileSystem) (root : DocRoot) (f : SourceFile) : Verdict :=
  match fs.realPlace f.path with
  | .error e => .error f.relative (.unreadable (readMessage e))
  | .ok place =>
    if root.canonical.isPrefixOf place then .file f
    else .error f.relative (.unreadable (outsideMessage place))

/-- Judges a visit. -/
def judge (fs : FileSystem) (root : DocRoot) (selection : Selection)
    (patterns : List (List Glob.Item)) : Visit → Verdict
  | .failure trail cause =>
    .error (.ofRelativeNames trail) (.unreadable (traversalMessage cause))
  | .entry trail .file =>
    match trail.getLast? with
    | none => .nothing
    | some n =>
      let f : SourceFile := ⟨root.path.along trail, .ofRelativeNames trail⟩
      if selection.selects n && !isExcluded patterns f.relative n then judgeFile fs root f
      else .nothing
  | .entry _ _ => .nothing

/-- Keeps the files and the errors among verdicts, each in their order. -/
def ofVerdicts (vs : List Verdict) : Discovery where
  files := vs.filterMap fun
    | .file f => some f
    | _ => none
  errors := vs.filterMap fun
    | .error p v => some (p, v)
    | _ => none

/-- Finds the files to look at below a root. -/
def find (fs : FileSystem) (root : DocRoot) (c : Config) (selection : Selection)
    (skipArchive : Bool) : Except Failure Discovery :=
  match patterns c.exclude with
  | .error e => .error e
  | .ok ps =>
    .ok (ofVerdicts
      ((fs.visits (rules c skipArchive) root.path root.canonical).map
        (judge fs root selection ps)))

end Discovery

end DocLint
