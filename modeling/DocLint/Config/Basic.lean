import DocLint.Emoji
import DocLint.Path.Basic
import DocLint.Text.Blank
import DocLint.Text.Lowercase

/-!
The options of a check.

* `Config` has the options with their defaults.
* `extension?` is the form in which a file extension is kept: without blanks
  around it, in lower case, with a dot in front. What is blank or a mere dot is
  no extension.
* `Config.withExtensions` replaces the extensions.
-/

namespace DocLint

/-- The options of a check. -/
structure Config where
  /-- The directory to look through. -/
  root : Path := Path.ofString "docs"
  /-- The ends of the names of the files whose content is looked at. -/
  extensions : List String := [".md"]
  /-- Glob patterns of the files to leave out. -/
  exclude : List String := []
  /-- The directory right below the root that holds archived documentation. -/
  archiveDir : String := "archive"
  /-- Look at archived documentation in every check. -/
  includeArchive : Bool := false
  /-- The characters that count as emoji. -/
  emojiRanges : Emoji.Ranges := .relaxed
  /-- The greatest number of bytes of a file that is read. -/
  maxFileSize : Nat := 10485760
  /-- Follow symbolic links. -/
  followLinks : Bool := false
  /-- How many directories deep to look. -/
  maxDepth : Nat := 64
  deriving DecidableEq

/-- An extension as it is kept, if it is one. -/
def extension? (raw : String) : Option String :=
  match Text.lowercase (Text.trim raw.toList) with
  | [] | ['.'] => none
  | '.' :: e => some (String.ofList ('.' :: e))
  | e => some (String.ofList ('.' :: e))

namespace Config

/-- One more than the greatest number that an option can be given, the greatest
one that 64 bits hold. -/
def numberBound : Nat := 18446744073709551616

/-- The options with other extensions. -/
def withExtensions (c : Config) (raw : List String) : Config :=
  { c with extensions := raw.filterMap extension? }

end Config

end DocLint
