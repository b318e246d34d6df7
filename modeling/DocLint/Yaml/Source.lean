/-!
YAML text with positions.

* `Fault` is what can be wrong with a text.
* `Source` is a text of which every character knows its line, its column and
  the number of characters before it. Every line end is a line feed, and a NUL
  character ends the text; one stands at the end of every source.
* The character classes are those of the YAML grammar, `Source.skipBlanks`
  skips blanks and a comment up to the end of a line.
-/

namespace DocLint.Yaml

/-! ### Faults -/

/-- What can be wrong with a text. -/
inductive Fault where
  | indentation
  | tab
  | comment
  | key
  | value
  | entry
  | character
  | quoted
  | escape
  | plain
  | block
  | margin
  | anchor
  | tag
  | directive
  | documentEnd
  | unexpected
  | unknownAlias
  | openAlias
  | nesting
  | size
  | manyDocuments
  deriving DecidableEq, Repr

/-- A fault in words. -/
def Fault.message : Fault → String
  | indentation => "wrong indentation"
  | tab => "a tab is used as indentation"
  | comment => "a comment must be set off by a blank"
  | key => "a key is not allowed here or lacks its colon"
  | value => "a value is not allowed here"
  | entry => "a sequence entry is not allowed here"
  | character => "a character cannot start a token"
  | quoted => "a quoted scalar is not closed or is followed by other text"
  | escape => "an escape sequence is unknown"
  | plain => "a plain scalar is ill-formed"
  | block => "a block scalar is ill-formed"
  | margin => "a folded scalar is not indented"
  | anchor => "an anchor or alias lacks its name"
  | tag => "a tag is ill-formed or unknown"
  | directive => "a directive is ill-formed or out of place"
  | documentEnd => "there is text after a document end marker"
  | unexpected => "a node is missing or out of place"
  | unknownAlias => "an alias names no anchor"
  | openAlias => "an alias stands within the node that it names"
  | nesting => "nodes or brackets are nested too deep"
  | size => "the document has too many nodes, bytes, merge keys, anchors or aliases"
  | manyDocuments => "there is more than one document"

/-! ### Sources -/

/-- A character and its place: its line, its column, and the number of
characters before it. -/
structure Spot where
  char : Char
  line : Nat
  column : Nat
  offset : Nat
  deriving DecidableEq, Repr

/-- A text with positions. -/
abbrev Source := List Spot

/-- The character that ends a text. -/
def endChar : Char := '\x00'

/-- The text with line feeds for line ends. -/
def normalBreaks : List Char → List Char
  | '\r' :: '\n' :: cs => '\n' :: normalBreaks cs
  | '\r' :: cs => '\n' :: normalBreaks cs
  | c :: cs => c :: normalBreaks cs
  | [] => []

namespace Source

/-- The source of a text that starts at a place. -/
def spots (line column offset : Nat) : List Char → Source
  | [] => [⟨endChar, line, column, offset⟩]
  | c :: cs =>
    ⟨c, line, column, offset⟩ ::
      if c = '\n' then spots (line + 1) 0 (offset + 1) cs
      else spots line (column + 1) (offset + 1) cs

/-- The source of a text. -/
def ofText (s : List Char) : Source :=
  spots 1 0 0 ((normalBreaks s).takeWhile (· ≠ endChar))

/-- The first character. -/
def char (s : Source) : Char :=
  (s.head?.map Spot.char).getD endChar

/-- The character behind `n` others. -/
def charAt (s : Source) (n : Nat) : Char :=
  ((s[n]?).map Spot.char).getD endChar

/-- The line of the first character. -/
def line (s : Source) : Nat :=
  (s.head?.map Spot.line).getD 0

/-- The column of the first character. -/
def column (s : Source) : Nat :=
  (s.head?.map Spot.column).getD 0

/-- The number of characters before the first one. -/
def offset (s : Source) : Nat :=
  (s.head?.map Spot.offset).getD 0

end Source

/-! ### Character classes -/

/-- Whether a character is a blank within a line. -/
def isBlank (c : Char) : Bool :=
  c == ' ' || c == '\t'

/-- Whether a character ends a line or the text. -/
def isLineEnd (c : Char) : Bool :=
  c == '\n' || c == endChar

/-- Whether a character sets tokens apart. -/
def isGap (c : Char) : Bool :=
  isBlank c || isLineEnd c

/-- Whether a character has a meaning of its own within brackets. -/
def isFlow (c : Char) : Bool :=
  c == ',' || c == '[' || c == ']' || c == '\x7b' || c == '\x7d'

/-- Whether a character can stand in the handle of a tag. -/
def isWordChar (c : Char) : Bool :=
  c.isAlphanum || c == '_' || c == '-'

/-- Whether a character can stand in a tag or in its meaning. -/
def isUriChar (c : Char) : Bool :=
  isWordChar c || "#;/?:@&=+$,.!~*\x27()[]%".contains c

/-- Whether a character can stand in the part of a tag behind its handle. -/
def isTagChar (c : Char) : Bool :=
  isUriChar c && !isFlow c && c != '!'

/-- Whether a character can stand in the name of an anchor; a byte order mark
cannot. -/
def isAnchorChar (c : Char) : Bool :=
  !isGap c && !isFlow c && c != '\ufeff'

namespace Source

/-- Whether three equal characters stand at the front by themselves. -/
def startsMarker (s : Source) (c : Char) : Bool :=
  s.char == c && s.charAt 1 == c && s.charAt 2 == c && isGap (s.charAt 3)

/-- Whether a document marker stands at the front. -/
def startsAnyMarker (s : Source) : Bool :=
  s.startsMarker '-' || s.startsMarker '.'

/-- Whether a plain scalar can go on with the first character. -/
def continuesPlain (s : Source) (inFlow : Bool) : Bool :=
  if s.char == ':' then !(isGap (s.charAt 1) || (inFlow && isFlow (s.charAt 1)))
  else !(inFlow && isFlow s.char)

/-- Whether nothing but blanks and a comment is left on the line. -/
def isLineDone (s : Source) : Bool :=
  let c := char (s.dropWhile fun p => isBlank p.char)
  isLineEnd c || c == '#'

/-- What a stretch of blanks holds. -/
structure Blanks where
  tabs : Bool
  spaces : Bool

/-- Skips blanks, and the comment behind them. Tabs are blanks only where they
are allowed. -/
def skipBlanksFrom (allowTabs : Bool) (seen : Blanks) (inComment : Bool) :
    Source → Except Fault (Source × Blanks)
  | [] => .ok ([], seen)
  | p :: s =>
    if inComment then
      if isLineEnd p.char then .ok (p :: s, seen) else skipBlanksFrom allowTabs seen true s
    else if p.char = ' ' then skipBlanksFrom allowTabs { seen with spaces := true } false s
    else if p.char = '\t' && allowTabs then
      skipBlanksFrom allowTabs { seen with tabs := true } false s
    else if p.char = '#' then
      if seen.tabs || seen.spaces then skipBlanksFrom allowTabs seen true s else .error .comment
    else .ok (p :: s, seen)

/-- Skips blanks and a comment; what was skipped comes with the rest. -/
def skipBlanks (allowTabs : Bool) (s : Source) : Except Fault (Source × Blanks) :=
  skipBlanksFrom allowTabs ⟨false, false⟩ false s

end Source

end DocLint.Yaml
