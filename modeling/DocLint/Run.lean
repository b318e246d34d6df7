import DocLint.Discovery.Basic
import DocLint.Fence
import DocLint.Link.Check
import DocLint.Naming
import DocLint.Report.Basic

/-!
Running checks.

* `readBounded` reads a file of at most so many bytes as text; a file that is
  too large or no text is a violation of its own. Of a large file no more is
  taken than it takes to tell.
* `Check.inspect` is what a check makes of one file.
* `Check.run` runs a check over all files there are to look at, and
  `Check.runAll` all checks.
-/

namespace DocLint

/-- The message of a file that is no text. -/
def notTextMessage : String := "binary or non-UTF-8 file"

/-- The message of a file that is too large. -/
def oversizeMessage (limit : Nat) : String :=
  "file exceeds maximum size of " ++ toString limit ++ " bytes"

/-- The text of bytes, unless they are too many or no text. -/
def textWithin (limit : Nat) (bytes : ByteArray) : Except Violation String :=
  if limit < bytes.size then .error (.unreadable (oversizeMessage limit))
  else
    match String.fromUTF8? bytes with
    | some s => .ok s
    | none => .error (.unreadable notTextMessage)

/-- How many bytes are taken from a file: one past the limit tells a file that is too large from
one that just fits. Past the greatest number there is none. -/
def takenLength (limit : Nat) : Nat :=
  min (limit + 1) (Config.numberBound - 1)

/-- The text of the bytes of a file, of which only the first ones are taken. -/
def boundedText (limit : Nat) (content : ByteArray) : Except Violation String :=
  textWithin limit (content.extract 0 (takenLength limit))

/-- The text of a file, if it has at most `limit` bytes. -/
def readBounded (fs : FileSystem) (limit : Nat) (p : Path) : Except Violation String :=
  match fs.read p with
  | .error e => .error (.unreadable (Discovery.readMessage e))
  | .ok content => boundedText limit content

/-- What link resolution may ask of a file system. -/
def FileSystem.probe (fs : FileSystem) : Probe :=
  ⟨fs.isThere, fs.isDirectory⟩

namespace Check

/-- The files that a check looks at: names are checked of all files. -/
def selection (c : Check) (config : Config) : Selection :=
  match c with
  | filenames => .all
  | _ => .withExtensions config.extensions

/-- Whether a check leaves out the archive under the given options. -/
def leavesArchive (c : Check) (config : Config) : Bool :=
  c.skipsArchive && !config.includeArchive

/-- The violations in the text of a file. -/
def scan (c : Check) (fs : FileSystem) (root : DocRoot) (config : Config) (f : SourceFile)
    (content : String) : List Violation :=
  match c with
  | fences => Fence.scan content
  | links => Link.scan (f.path.parent?.getD root.path) root.projectRoot fs.probe content
  | emoji => Emoji.scan config.emojiRanges content
  | filenames => []

/-- The violations of a file, or the one that kept it from being looked at.
Names are checked without reading the file. -/
def inspect (c : Check) (fs : FileSystem) (root : DocRoot) (config : Config) (f : SourceFile) :
    Except Violation (List Violation) :=
  match c with
  | filenames => .ok ((Naming.check f.relative).map (.wholeFile .namingPolicy))
  | _ =>
    match readBounded fs config.maxFileSize f.path with
    | .error v => .error v
    | .ok content => .ok (c.scan fs root config f content)

/-- The violations of a file, whether or not it could be looked at. -/
def violationsOf : Except Violation (List Violation) → List Violation
  | .ok vs => vs
  | .error v => [v]

/-- The report on a discovery. Files without violations are not listed. -/
def reportOn (c : Check) (fs : FileSystem) (root : DocRoot) (config : Config) (d : Discovery) :
    Report :=
  let results := d.files.map fun f => (f.relative, c.inspect fs root config f)
  { check := c
    scanned := (results.filter (·.2.isOk)).length
    failed := d.errors.length + (results.filter fun r => !r.2.isOk).length
    findings := .ofList
      (d.errors.map (fun e => (e.1, [e.2])) ++
        (results.map fun r => (r.1, violationsOf r.2)).filter fun r => !r.2.isEmpty) }

/-- Runs a check. -/
def run (c : Check) (fs : FileSystem) (config : Config) : Except Failure Report :=
  match DocRoot.resolve fs config.root with
  | .error e => .error e
  | .ok root =>
    match Discovery.find fs root config (c.selection config) (c.leavesArchive config) with
    | .error e => .error e
    | .ok d => .ok (c.reportOn fs root config d)

/-- Runs checks one after another; the first failure ends it. -/
def runEach (fs : FileSystem) (config : Config) : List Check → Except Failure (List Report)
  | [] => .ok []
  | c :: cs =>
    match c.run fs config with
    | .error e => .error e
    | .ok r =>
      match runEach fs config cs with
      | .error e => .error e
      | .ok rs => .ok (r :: rs)

/-- Runs all checks. -/
def runAll (fs : FileSystem) (config : Config) : Except Failure (List Report) :=
  runEach fs config all

end Check

end DocLint
