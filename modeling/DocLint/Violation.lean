/-!
What a check finds wrong.

* `Violation` is one defect of one file: the line it is on, its kind, a message
  and the text it is about. Line zero stands for the file as a whole.
* `Violation.atLine` and `Violation.wholeFile` make the two sorts.
* `Violation.summary` is the one-line wording for people.
-/

namespace DocLint

/-- The kinds of defect. -/
inductive Violation.Kind where
  /-- A fence opens a code block and names no language or path. -/
  | missingFenceTag
  /-- A code block is still open at the end of the file. -/
  | unclosedFence
  /-- A link leads to nothing. -/
  | brokenLink
  /-- A file or directory name breaks the naming policy. -/
  | namingPolicy
  /-- A line holds emoji. -/
  | emoji
  /-- A file could not be reached, read or decoded. -/
  | unreadableFile
  deriving DecidableEq, Repr

namespace Violation.Kind

/-- Every kind, in the order of their declaration. -/
def all : List Kind :=
  [missingFenceTag, unclosedFence, brokenLink, namingPolicy, emoji, unreadableFile]

/-- The name of a kind in machine-readable output. -/
def name : Kind → String
  | missingFenceTag => "missing_fence_tag"
  | unclosedFence => "unclosed_fence"
  | brokenLink => "broken_link"
  | namingPolicy => "naming_policy"
  | emoji => "emoji"
  | unreadableFile => "unreadable_file"

end Violation.Kind

/-- One defect of one file. -/
structure Violation where
  line : Nat
  kind : Violation.Kind
  message : String
  context : String
  deriving DecidableEq, Repr

namespace Violation

/-- A defect of one line, with the text that shows it. -/
def atLine (line : Nat) (kind : Kind) (message context : String) : Violation :=
  ⟨line, kind, message, context⟩

/-- A defect of a file as a whole. -/
def wholeFile (kind : Kind) (message : String) : Violation :=
  ⟨0, kind, message, ""⟩

/-- A file that a check had to leave out. -/
def unreadable (message : String) : Violation :=
  wholeFile .unreadableFile message

/-- Whether the defect is one of the file as a whole. -/
def isWholeFile (v : Violation) : Bool :=
  v.line == 0

/-- The defect in words: the line and the context are named where there are
any, and a file left out is marked as a warning. -/
def summary (v : Violation) : String :=
  if v.isWholeFile then
    if v.kind = .unreadableFile then "[warning] " ++ v.message else v.message
  else if v.context = "" then "Line " ++ toString v.line ++ ": " ++ v.message
  else "Line " ++ toString v.line ++ ": " ++ v.message ++ ": '" ++ v.context ++ "'"

end Violation

end DocLint
