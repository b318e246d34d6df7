import DocLint.Report.Findings

/-!
Checks, and the reports they end in.

* `Check` is one of the four checks, with its name, the heading of its report
  and whether it leaves archived documentation alone.
* `Report` is the result of one check: how many files were looked at, how many
  could not be, and the violations by file.
-/

namespace DocLint

/-- The checks. -/
inductive Check where
  /-- Code blocks are tagged and closed. -/
  | fences
  /-- Links lead to files that are there. -/
  | links
  /-- File and directory names follow the policy. -/
  | filenames
  /-- There are no emoji. -/
  | emoji
  deriving DecidableEq, Repr

namespace Check

/-- The checks in the order in which they run. -/
def all : List Check := [fences, links, filenames, emoji]

/-- The name of a check. -/
def name : Check → String
  | fences => "fences"
  | links => "links"
  | filenames => "filenames"
  | emoji => "emoji"

/-- The check of a name. -/
def ofName? (s : String) : Option Check :=
  all.find? (·.name == s)

/-- The heading of a report. -/
def title : Check → String
  | fences => "Code-fence language check"
  | links => "Internal link check"
  | filenames => "Docs filename check"
  | emoji => "Emoji check"

/-- Whether a check leaves archived documentation alone unless it is asked
not to. -/
def skipsArchive (c : Check) : Bool :=
  c == emoji

end Check

/-- The result of one check. -/
structure Report where
  check : Check
  /-- The files that were looked at. -/
  scanned : Nat
  /-- The files that could not be reached or read. -/
  failed : Nat
  findings : Findings

/-- Whether a check found nothing wrong. -/
def Report.ok (r : Report) : Bool :=
  r.findings.isClean

end DocLint
