import DocLint.Text.Pieces

/-!
The lines of a text.

* `lines` cuts at line feeds. A carriage return directly before a line feed
  belongs to the line end; an end of text after a line feed starts no line.
* `lineCount` counts line feeds, the number of lines that a position has
  before it.
-/

namespace DocLint.Text

/-- A line without the carriage return that ends it. -/
def dropReturn (l : List Char) : List Char :=
  if l.getLast? = some '\r' then l.dropLast else l

/-- The lines of a text. Only a line that a line feed ends loses its carriage
return, and the last stretch is a line only if it holds something. -/
def lines (s : List Char) : List (List Char) :=
  let ps := pieces '\n' s
  ps.dropLast.map dropReturn ++ ps.getLast?.toList.filter (fun l => !l.isEmpty)

/-- The lines with their numbers, counted from one. -/
def numberedLines (s : List Char) : List (Nat × List Char) :=
  (lines s).zipIdx.map fun p => (p.2 + 1, p.1)

/-- The number of line feeds. -/
def lineCount (s : List Char) : Nat :=
  s.count '\n'

/-- Both line ends are cut off, a lone carriage return stays, and the end of
text is no line of its own. -/
example : lines "a\r\nb\r\n\nc\r".toList = ["a", "b", "", "c\r"].map String.toList := by decide

end DocLint.Text
