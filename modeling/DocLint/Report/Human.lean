import DocLint.Report.Basic

/-!
Reports for people.

* `Report.humanLines` are the lines of a report: one if nothing is wrong, else
  a heading with counts, the violations of each file under its path, and what
  to do about them.
* `verbose` adds a line below a violation: the line with the emoji, or a hint.
* `Report.human` is the text.
-/

namespace DocLint

/-- What to do about a violation. -/
def Violation.Kind.hint? : Violation.Kind → Option String
  | .missingFenceTag =>
    some ("Hint: add a language or path after the opening fence, " ++
      "e.g. ```rust or ```/dev/null/example.rs#L1-3")
  | .unclosedFence =>
    some "Hint: close the block with a fence of the same character (``` or ~~~)"
  | .brokenLink =>
    some "Hint: fix the relative path, or link to a directory that contains README.md"
  | .namingPolicy | .emoji | .unreadableFile => none

namespace Violation

/-- The line of a violation. Names that break the policy are listed as items. -/
def humanLine (v : Violation) : String :=
  if v.kind = .namingPolicy then "    - " ++ v.message else "  " ++ v.summary

/-- The line below a violation: the text of a line with emoji, else a hint. -/
def detail? (v : Violation) : Option String :=
  if v.isWholeFile then none
  else if v.kind = .emoji then some ("    " ++ v.context)
  else v.kind.hint?.map ("    " ++ ·)

/-- The lines of a violation. -/
def humanLines (verbose : Bool) (v : Violation) : List String :=
  v.humanLine :: if verbose then v.detail?.toList else []

end Violation

namespace Report

/-- The line of a report without violations. -/
def okLine (r : Report) : String :=
  r.check.title ++ ": OK - no issues found (" ++ toString r.scanned ++ " file(s) checked)."

/-- The heading of a report with violations. -/
def headline (r : Report) : String :=
  r.check.title ++ ": " ++ toString r.findings.count ++ " issue(s) across " ++
    toString r.findings.fileCount ++ " file(s)."

/-- The lines of one file: its path, its violations and an empty line. -/
def fileLines (verbose : Bool) (e : Path × List Violation) : List String :=
  if e.2.isEmpty then []
  else (e.1.display ++ ":") :: (e.2.flatMap (Violation.humanLines verbose) ++ [""])

/-- What to do about names. -/
def renameAdvice : String :=
  "Summary: rename files to follow 'lowercase_with_underscores.md' and use '.yaml' " ++
    "for YAML files. Exception: 'README.md' is allowed."

/-- The reminder that some files were left out. -/
def failedLine (r : Report) : String :=
  toString r.failed ++ " file(s) could not be checked; treat this as a failure."

/-- The lines at the end of a report with violations. -/
def closingLines (r : Report) : List String :=
  (if r.check = .filenames ∧ r.findings.hasKind .namingPolicy then [renameAdvice] else []) ++
    (if 0 < r.failed then [r.failedLine] else [])

/-- The lines of a report. -/
def humanLines (verbose : Bool) (r : Report) : List String :=
  if r.ok then [r.okLine]
  else r.headline :: "" :: (r.findings.entries.flatMap (fileLines verbose) ++ r.closingLines)

/-- The text of a report, every line ended. -/
def human (verbose : Bool) (r : Report) : String :=
  String.join ((r.humanLines verbose).map (· ++ "\n"))

end Report

end DocLint
