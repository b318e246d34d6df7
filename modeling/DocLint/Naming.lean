import DocLint.Path.Basic
import DocLint.Text.Lowercase
import DocLint.Text.Uppercase

/-!
The naming policy: pages are `lowercase_with_underscores.md`, index pages
`README.md`, data files end in `.yaml`, and no directory has a capital letter.

* `Naming.Fault` is one way in which a path breaks the policy, and
  `Naming.Fault.message` says it in words.
* `Naming.faults` are the faults of a path, directories first.
* `Naming.check` are their messages.
-/

namespace DocLint.Naming

/-- The name of an index page. -/
def indexName : List Char := "README.md".toList

/-- The ways of breaking the policy. -/
inductive Fault where
  | uppercaseDirectory (name : List Char)
  | markdownExtension (found : List Char)
  | indexSpelling (found : List Char)
  | spaces
  | hyphens
  | uppercaseLetters
  | otherCharacters
  | shortYamlExtension
  | yamlExtension (found : List Char)
  deriving DecidableEq, Repr

/-- A fault in words. -/
def Fault.message : Fault → String
  | uppercaseDirectory name =>
    "directory contains uppercase characters: '" ++ String.ofList name ++ "'"
  | markdownExtension found =>
    "extension must be lowercase '.md' (found '." ++ String.ofList found ++ "')"
  | indexSpelling found =>
    "index file must be named exactly 'README.md' (found '" ++ String.ofList found ++ "')"
  | spaces => "filename contains spaces; use underscores instead"
  | hyphens => "filename contains hyphen(s); use underscores instead"
  | uppercaseLetters => "filename contains uppercase letters; use lowercase only"
  | otherCharacters =>
    "filename must be lowercase with underscores and contain only letters, digits, " ++
      "and underscores (e.g., 'my_doc_page.md')"
  | shortYamlExtension =>
    "YAML files must use the '.yaml' extension (rename from .yml to .yaml)"
  | yamlExtension found =>
    "extension must be lowercase '.yaml' (found '." ++ String.ofList found ++ "')"

/-! ### Markdown pages -/

/-- Whether a character may stand in the name of a page. -/
def isPageChar (c : Char) : Bool :=
  ('a' ≤ c && c ≤ 'z') || ('0' ≤ c && c ≤ '9') || c == '_'

/-- Whether a name is that of a page: allowed characters, at least one, before
the extension. -/
def isPageName (name : List Char) : Bool :=
  match name.reverse with
  | 'd' :: 'm' :: '.' :: stem => !stem.isEmpty && stem.all isPageChar
  | _ => false

/-- Whether two texts agree up to the case of ASCII letters. -/
def sameLetters (s t : List Char) : Bool :=
  s.map Char.toLower == t.map Char.toLower

/-- The faults of a name by itself that no page may have. The last one stands
for all others. -/
def characterFaults (name : List Char) : List Fault :=
  let specific :=
    (if name.contains ' ' then [.spaces] else []) ++
    (if name.contains '-' then [.hyphens] else []) ++
    (if Text.hasUppercase name then [.uppercaseLetters] else [])
  if specific.isEmpty then [.otherCharacters] else specific

/-- The faults of a Markdown file with the given name and extension. -/
def markdownFaults (name ext : List Char) : List Fault :=
  (if ext = "md".toList then [] else [.markdownExtension ext]) ++
  (if name = indexName then []
    else if sameLetters name indexName then [.indexSpelling name]
    else if isPageName name then []
    else characterFaults name)

/-! ### Paths -/

/-- The faults of a file name with the given extension. -/
def extensionFaults (name ext : List Char) : List Fault :=
  let lower := Text.lowercase ext
  if lower = "md".toList then markdownFaults name ext
  else if lower = "yml".toList then [.shortYamlExtension]
  else if lower = "yaml".toList ∧ ext ≠ "yaml".toList then [.yamlExtension ext]
  else []

/-- The faults of a file name. A name without an extension has none. -/
def fileFaults (n : FileName) : List Fault :=
  match n.extension? with
  | some ext => extensionFaults n.text (Text.Utf8.decodeLossy ext)
  | none => []

/-- The faults of the directories of a path: every name but the last one. -/
def directoryFaults (p : Path) : List Fault :=
  ((p.names.dropLast.map FileName.text).filter Text.hasUppercase).map .uppercaseDirectory

/-- The faults of a path. -/
def faults (p : Path) : List Fault :=
  directoryFaults p ++ (p.fileName?.map fileFaults).getD []

/-- What is wrong with a path, in words. -/
def check (p : Path) : List String :=
  (faults p).map Fault.message

end DocLint.Naming
