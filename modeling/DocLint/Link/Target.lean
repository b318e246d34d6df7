import DocLint.Text.Blank
import DocLint.Text.Lowercase

/-!
Link targets: what they are about, and which part of them names a file.

* `isExternal` holds of a target that starts with one of the `schemes`, in any
  letter case.
* `isAnchor` holds of a target that stays on its own page.
* `fileOf` drops the fragment and then the query.
-/

namespace DocLint.Link

/-- What an external target starts with. -/
def schemes : List (List Char) :=
  ["http://", "https://", "mailto:", "tel:", "ftp://", "data:"].map String.toList

/-- Whether a target leaves the documentation. -/
def isExternal (target : List Char) : Bool :=
  let t := Text.lowercase (Text.trim target)
  schemes.any (·.isPrefixOf t)

/-- Whether a target is a place on the same page. -/
def isAnchor (target : List Char) : Bool :=
  (Text.trim target).head? == some '#'

/-- Whether a target names something to be looked for. -/
def isPath (target : List Char) : Bool :=
  !isExternal target && !isAnchor target

/-- The target without its fragment and its query. -/
def fileOf (target : List Char) : List Char :=
  (target.takeWhile (· ≠ '#')).takeWhile (· ≠ '?')

/-- Everything from the first mark on is dropped, whatever it holds. -/
example : fileOf "a?b#c?d".toList = ['a'] ∧ fileOf "a#b?c".toList = ['a'] ∧
    fileOf "?a".toList = [] := by decide

end DocLint.Link
