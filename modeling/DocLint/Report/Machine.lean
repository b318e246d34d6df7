import DocLint.Json
import DocLint.Report.Basic

/-!
Reports for programs.

* `Violation.toJson` and `Report.toJson` are the JSON values of a violation and
  of a report. Paths are written as text, with replacement characters where
  they are not well-formed UTF-8.
* `Report.json` is the text of one report, `Report.jsonList` that of several.
-/

namespace DocLint

/-- A violation as an object. -/
def Violation.toJson (v : Violation) : Json :=
  .object [
    ("line", .number v.line),
    ("kind", .string v.kind.name),
    ("message", .string v.message),
    ("context", .string v.context)]

namespace Report

/-- The violations of a file, under its path. -/
def entryToJson (e : Path × List Violation) : String × Json :=
  (e.1.display, .array (e.2.map Violation.toJson))

/-- A report as an object. -/
def toJson (r : Report) : Json :=
  .object [
    ("check", .string r.check.name),
    ("scanned_files", .number r.scanned),
    ("failed_files", .number r.failed),
    ("ok", .bool r.ok),
    ("violations", .object (r.findings.entries.map entryToJson))]

/-- The text of a report. -/
def json (r : Report) : String :=
  r.toJson.document

/-- The text of several reports. -/
def jsonList (rs : List Report) : String :=
  (Json.array (rs.map toJson)).document

end Report

end DocLint
