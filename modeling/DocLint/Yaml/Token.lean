import DocLint.Yaml.Scalar
import DocLint.Yaml.Tag

/-!
YAML tokens.

* `Token` is what a text is cut into: scalars, brackets, the indicators of keys,
  values and entries, and the places where the indentation opens or closes a
  block.
* `Scanner` is the state between two tokens: the indentations that are open,
  and for every level of brackets the token that turns out to be a key if a
  colon follows.
* `Scanner.step` reads one token; a colon puts the indicator of a key in front
  of the token that it makes one. A pair that stands by itself in a sequence
  within brackets gets brackets of its own.
* `Token.ofText` are the tokens of a text. The last one is the end of the text
  or the fault that scanning ended in. A token that may still turn out to be a
  key is not known before what follows it is, so a fault takes the place of the
  first such token.
-/

namespace DocLint.Yaml

/-- A part of a YAML text. -/
inductive Token where
  | endOfText
  | fault (f : Fault)
  | version
  | tagHandle (handle expansion : List Char)
  | otherDirective
  | documentStart
  | documentEnd
  | blockSequence
  | blockMapping
  | blockEnd
  | openSequence
  | closeSequence
  | openMapping
  | closeMapping
  | blockEntry
  | comma
  | key
  | value
  | reference (name : List Char)
  | anchor (name : List Char)
  | tag (handle suffix : List Char)
  | scalar (style : Style) (text : List Char)
  /-- A folded scalar with a text at the margin, which is not to be read. -/
  | marginalScalar
  deriving DecidableEq, Repr

/-- An indentation that was left for a deeper one, and whether the deeper one
belongs to a block. -/
structure Indent where
  previous : Int
  isBlock : Bool
  deriving DecidableEq, Repr

/-- A token that may turn out to be a key: whether it still may, whether it has
to, how many tokens are before it, and where it starts. -/
structure KeyCandidate where
  isPossible : Bool
  isRequired : Bool
  index : Nat
  line : Nat
  column : Nat
  offset : Nat
  deriving DecidableEq, Repr

/-- The candidate that is none. -/
def KeyCandidate.none : KeyCandidate := ⟨false, false, 0, 0, 0, 0⟩

/-- The greatest number of characters of a key outside of brackets. -/
def maxKeyLength : Nat := 1024

/-- Whether a candidate outside of brackets ended with its line or is too long,
seen from a later place. -/
def KeyCandidate.isStale (k : KeyCandidate) (here : Source) : Bool :=
  decide (k.line < here.line) || decide (k.offset + maxKeyLength < here.offset)

/-- The state between two tokens. -/
structure Scanner where
  rest : Source
  /-- The tokens so far, the last one first. -/
  read : List Token
  /-- The number of tokens so far. -/
  count : Nat
  /-- The column of the innermost block; less than zero outside of all. -/
  indent : Int
  indents : List Indent
  /-- The candidates of the levels of brackets, the innermost one first; the
  last one is that outside of all brackets. -/
  keys : List KeyCandidate
  keyAllowed : Bool
  /-- Whether the line has held nothing but blanks so far. -/
  atLineStart : Bool
  /-- The place where a value may follow its key without a blank. -/
  adjacentAt : Option Nat
  /-- For the sequences within brackets that are open, the innermost one first:
  whether a pair that stands by itself is open in it. -/
  lonePairs : List Bool
  /-- Whether brackets or the sign of a key have opened a mapping; pairs do not
  stand by themselves then, until one that did has ended. -/
  mappingSeen : Bool

namespace Scanner

/-- The state before the first token. -/
def start (s : Source) : Scanner where
  rest := s
  read := []
  count := 0
  indent := -1
  indents := []
  keys := [.none]
  keyAllowed := true
  atLineStart := true
  adjacentAt := none
  lonePairs := []
  mappingSeen := false

/-- Whether the scanner is within brackets. -/
def inFlow (s : Scanner) : Bool :=
  decide (1 < s.keys.length)

/-- The number of brackets that are open. -/
def level (s : Scanner) : Nat :=
  s.keys.length - 1

/-- The candidate of the innermost level. -/
def candidate (s : Scanner) : KeyCandidate :=
  s.keys.head?.getD .none

/-- Replaces the candidate of the innermost level. -/
def setCandidate (s : Scanner) (k : KeyCandidate) : Scanner :=
  { s with keys := k :: s.keys.tail }

/-- Adds a token. -/
def push (s : Scanner) (t : Token) : Scanner :=
  { s with read := t :: s.read, count := s.count + 1 }

/-- Puts a token behind the first `index` ones. -/
def insert (s : Scanner) (index : Nat) (t : Token) : Scanner :=
  let later := s.count - index
  { s with read := s.read.take later ++ t :: s.read.drop later, count := s.count + 1 }

/-- Moves to a place in the text behind something that is no blank. -/
def moveTo (s : Scanner) (rest : Source) : Scanner :=
  { s with rest := rest, atLineStart := false }

/-- Moves behind `n` characters that are no blanks. -/
def advance (s : Scanner) (n : Nat) : Scanner :=
  s.moveTo (s.rest.drop n)

/-- Allows a key to follow, or does not. -/
def allowKey (s : Scanner) (allowed : Bool) : Scanner :=
  { s with keyAllowed := allowed }

/-- Skips blanks and a comment. -/
def skipBlanks (s : Scanner) (allowTabs : Bool) : Except Fault (Scanner × Source.Blanks) :=
  match s.rest.skipBlanks allowTabs with
  | .error e => .error e
  | .ok (rest, seen) => .ok ({ s with rest := rest }, seen)

/-! ### Indentation -/

/-- Whether the innermost indentation belongs to a block. -/
def inBlockIndent (s : Scanner) : Bool :=
  (s.indents.head?.map Indent.isBlock).getD false

/-- Leaves indentations that are deeper than a column, and counts the blocks
that end with them. -/
def closeIndents (column : Int) (ended : Nat) : List Indent → Int → List Indent × Int × Nat
  | [], indent => ([], indent, ended)
  | i :: is, indent =>
    if column < indent then
      closeIndents column (if i.isBlock then ended + 1 else ended) is i.previous
    else (i :: is, indent, ended)

/-- Leaves indentations that are deeper than a column, outside of brackets. -/
def unroll (s : Scanner) (column : Int) : Scanner :=
  if s.inFlow then s
  else
    let (indents, indent, ended) := closeIndents column 0 s.indents s.indent
    { s with
      indents := indents
      indent := indent
      read := List.replicate ended .blockEnd ++ s.read
      count := s.count + ended }

/-- Indentations without the innermost ones that belong to no block. -/
def dropLoose : List Indent → Int → List Indent × Int
  | [], indent => ([], indent)
  | i :: is, indent => if i.isBlock then (i :: is, indent) else dropLoose is i.previous

/-- Leaves the innermost indentations that belong to no block. -/
def unrollLoose (s : Scanner) : Scanner :=
  let (indents, indent) := dropLoose s.indents s.indent
  { s with indents := indents, indent := indent }

/-- Leaves the innermost indentation if it belongs to no block and a column
reaches it. -/
def settle (s : Scanner) (column : Nat) : Scanner :=
  match s.indents with
  | i :: is =>
    if !i.isBlock && decide (s.indent ≤ (column : Int)) then
      { s with indents := is, indent := i.previous }
    else s
  | [] => s

/-- Opens a block at a column, unless the column is within one that is open or
there are brackets around. Its token goes to the given place. -/
def roll (s : Scanner) (column : Nat) (index : Nat) (t : Token) : Scanner :=
  if s.inFlow then s
  else
    let s := s.settle column
    if s.indent < (column : Int) then
      { s with indents := ⟨s.indent, true⟩ :: s.indents, indent := column }.insert index t
    else s

/-- Asks for one more column of indentation within a block. -/
def rollOne (s : Scanner) : Scanner :=
  if !s.inFlow && s.inBlockIndent then
    { s with indents := ⟨s.indent, false⟩ :: s.indents, indent := s.indent + 1 }
  else s

/-! ### Key candidates -/

/-- Takes the next token for a candidate, if a key is allowed here. It has to be
one if it stands where the keys of the block stand. -/
def noteKey (s : Scanner) : Scanner :=
  if s.keyAllowed then
    s.setCandidate
      ⟨true, !s.inFlow && decide (s.indent = (s.rest.column : Int)) && s.inBlockIndent,
        s.count, s.rest.line, s.rest.column, s.rest.offset⟩
  else s

/-- Gives up the candidate of the innermost level. -/
def dropKey (s : Scanner) : Except Fault Scanner :=
  let k := s.candidate
  if k.isPossible && k.isRequired then .error .key
  else .ok (s.setCandidate { k with isPossible := false })

/-- Gives up a stale candidate. Within brackets none is stale. -/
def dropStaleKey (s : Scanner) : Except Fault Scanner :=
  let k := s.candidate
  if k.isPossible && !s.inFlow && k.isStale s.rest then s.dropKey else .ok s

/-- The number of tokens before the first one that may still be a key, or of all
if there is none. -/
def settledCount (s : Scanner) : Nat :=
  let live := s.keys.filter fun k => k.isPossible && (s.inFlow || !k.isStale s.rest)
  live.foldl (fun n k => min n k.index) s.count

/-! ### The way to the next token -/

/-- Skips blanks, comments and line ends. Outside of brackets a key is allowed
on a new line; a tab may not take the place of indentation there. -/
def gapFrom (inBlock : Bool) (indent : Int) (inFlow keyAllowed atLineStart inComment : Bool) :
    Source → Except Fault (Source × Bool × Bool)
  | [] => .ok ([], keyAllowed, atLineStart)
  | p :: s =>
    if p.char = '\n' then gapFrom inBlock indent inFlow (keyAllowed || !inFlow) true false s
    else if p.char = endChar then .ok (p :: s, keyAllowed, atLineStart)
    else if inComment then gapFrom inBlock indent inFlow keyAllowed atLineStart true s
    else if p.char = '#' then gapFrom inBlock indent inFlow keyAllowed atLineStart true s
    else if p.char = ' ' then gapFrom inBlock indent inFlow keyAllowed atLineStart false s
    else if p.char = '\t' then
      if inBlock && atLineStart && decide ((p.column : Int) < indent) &&
          !Source.isLineDone (p :: s) then .error .tab
      else gapFrom inBlock indent inFlow keyAllowed atLineStart false s
    else .ok (p :: s, keyAllowed, atLineStart)

/-- Moves to the next token. -/
def skipGap (s : Scanner) : Except Fault Scanner :=
  match gapFrom (!s.indents.isEmpty) s.indent s.inFlow s.keyAllowed s.atLineStart false s.rest with
  | .error e => .error e
  | .ok (rest, keyAllowed, atLineStart) =>
    .ok { s with rest := rest, keyAllowed := keyAllowed, atLineStart := atLineStart }

/-! ### Brackets and commas -/

/-- The greatest number of brackets that are open at once. -/
def maxLevel : Nat := 255

/-- Reads an opening bracket. -/
def openBracket (s : Scanner) (t : Token) : Except Fault Scanner := do
  if maxLevel ≤ s.level then throw .nesting
  let s := s.noteKey.rollOne
  let s := { s with keys := .none :: s.keys }.allowKey true
  let s := if t = .openMapping then { s with mappingSeen := true }
    else { s with lonePairs := false :: s.lonePairs }
  let (s, _) ← (s.advance 1).skipBlanks true
  return s.push t

/-- Ends the pair that stands by itself in the innermost sequence, if there is
one. Braces within the pair do not count: a comma between them ends the pair,
which closes the braces. -/
def endLonePair (s : Scanner) : Scanner :=
  match s.lonePairs with
  | true :: ps => { s with lonePairs := false :: ps, mappingSeen := false }.push .closeMapping
  | _ => s

/-- Reads a closing bracket. -/
def closeBracket (s : Scanner) (t : Token) : Except Fault Scanner := do
  let s ← s.dropKey
  let s := if t = .closeSequence then
      let s := s.endLonePair
      { s with lonePairs := s.lonePairs.tail }
    else s
  let s := { s with keys := if s.inFlow then s.keys.tail else s.keys }.allowKey false
  let (s, _) ← (s.advance 1).skipBlanks true
  let s := if s.inFlow then { s with adjacentAt := some s.rest.offset } else s
  return s.push t

/-- Reads a comma. -/
def readComma (s : Scanner) : Except Fault Scanner := do
  let s ← s.dropKey
  let (s, _) ← ((s.allowKey true).endLonePair.advance 1).skipBlanks true
  return s.push .comma

/-! ### Entries, keys and values -/

/-- Reads the hyphen of a sequence entry. -/
def readEntry (s : Scanner) : Except Fault Scanner := do
  if s.inFlow || !s.keyAllowed then throw .entry
  let column := s.rest.column
  let s := (s.advance 1).roll column s.count .blockSequence
  let (s, seen) ← s.skipBlanks true
  if seen.tabs && s.rest.char == '-' && isGap (s.rest.charAt 1) then throw .tab
  let (s, _) ← s.skipBlanks false
  let s := if s.rest.char == '\n' || isFlow s.rest.char then s.rollOne else s
  let s ← s.dropKey
  return (s.allowKey true).push .blockEntry

/-- Skips the blanks, comments and line ends behind the sign of a key; tabs are
none of them. -/
def afterKeySign (inComment seen keyAllowed : Bool) (inFlow : Bool) :
    Source → Except Fault (Source × Bool)
  | [] => .error .key
  | p :: s =>
    if p.char = '\n' then afterKeySign false true (keyAllowed || !inFlow) inFlow s
    else if inComment && p.char != endChar then afterKeySign true seen keyAllowed inFlow s
    else if p.char = ' ' then afterKeySign false true keyAllowed inFlow s
    else if p.char = '#' then afterKeySign true seen keyAllowed inFlow s
    else if p.char = '\t' then .error .tab
    else if seen then .ok (p :: s, keyAllowed)
    else .error .key

/-- Reads the question mark of a key. -/
def readKey (s : Scanner) : Except Fault Scanner := do
  if !s.inFlow && !s.keyAllowed then throw .key
  let column := s.rest.column
  let s := s.roll column s.count .blockMapping
  let s := if s.inFlow then { s with mappingSeen := true } else s
  let s ← s.dropKey
  let s := (s.allowKey !s.inFlow).advance 1
  let (rest, keyAllowed) ← afterKeySign false false s.keyAllowed s.inFlow s.rest
  return ({ s with rest := rest }.allowKey keyAllowed).push .key

/-- Puts the sign of a key in front of the candidate of the level, with a bracket
before it if the pair stands by itself, or with the start of a block. -/
def makeKey (s : Scanner) (isLone : Bool) : Scanner :=
  let k := s.candidate
  let s := s.insert k.index .key
  let s := if isLone then s.insert k.index .openMapping else s
  let s := (s.roll k.column k.index .blockMapping).rollOne
  (s.setCandidate { k with isPossible := false }).allowKey false

/-- Reads the colon of a value. The candidate of the level becomes a key; without
one the colon stands by itself. The key of a pair that stands by itself within
brackets is on the same line. -/
def readValue (s : Scanner) : Except Fault Scanner := do
  let k := s.candidate
  let line := s.rest.line
  let column := s.rest.column
  let isLone := !s.lonePairs.isEmpty && !s.mappingSeen
  let mut s := s.advance 1
  if isLone then
    s := { s with lonePairs := true :: s.lonePairs.tail }
  if s.rest.char == '\t' then
    let (s', seen) ← s.skipBlanks true
    if !seen.spaces && (s'.rest.char == '-' || isWordChar s'.rest.char) then throw .tab
    s := s'
  if k.isPossible then
    if isLone && k.line < line then throw .value
    s := s.makeKey isLone
  else
    if isLone then s := s.push .openMapping
    if !s.inFlow then
      if !s.keyAllowed then throw .value
      s := s.roll column s.count .blockMapping
    s := s.rollOne.allowKey !s.inFlow
  return s.push .value

/-- Reads the colon of a value that no blank follows. -/
def readAdjacentValue (s : Scanner) : Except Fault Scanner :=
  let next := s.rest.charAt 1
  if s.adjacentAt ≠ some s.rest.offset && (next == '[' || next == '\x7b') then .error .value
  else s.readValue

/-! ### Anchors and tags -/

/-- Reads an anchor or an alias. -/
def readAnchor (s : Scanner) (t : List Char → Token) : Except Fault Scanner :=
  let s := s.noteKey.allowKey false
  let name := ((s.rest.drop 1).takeWhile fun p => isAnchorChar p.char).map Spot.char
  if name.isEmpty then .error .anchor
  else .ok ((s.advance (name.length + 1)).push (t name))

/-- Reads a tag. -/
def readTag (s : Scanner) : Except Fault Scanner := do
  let s := s.noteKey.allowKey false
  let (handle, suffix, rest) ← Tag.read s.rest
  if isGap rest.char || (s.inFlow && isFlow rest.char) then
    return (s.moveTo rest).push (.tag handle suffix)
  else throw .tag

/-! ### Scalars -/

/-- Reads a quoted scalar. Outside of brackets nothing but a colon may follow it
on its line, and that only on the line where it started. -/
def readQuoted (s : Scanner) (quote : Char) (style : Style) : Except Fault Scanner := do
  let s := s.noteKey.allowKey false
  let line := s.rest.line
  let (text, rest) ← quoted quote s.indent (s.rest.drop 1)
  let (s, _) ← (s.moveTo rest).skipBlanks true
  let c := s.rest.char
  let fits := isLineEnd c ||
    (if s.inFlow then c == ',' || c == '\x7d' || c == ']' || c == ':'
      else c == ':' && line == s.rest.line)
  if !fits then throw .quoted
  let s ← s.skipGap
  let s := { s with adjacentAt := some s.rest.offset }
  return s.push (.scalar style text)

/-- Reads a plain scalar. A key is allowed behind one that a line end ends. -/
def readPlain (s : Scanner) : Except Fault Scanner := do
  let s := (s.noteKey.allowKey false).unrollLoose
  let indent := s.indent + 1
  if s.inFlow && decide ((s.rest.column : Int) < indent) then throw .indentation
  let r ← plain indent s.inFlow s.atLineStart s.rest
  let s := { s with rest := r.rest, atLineStart := r.broken }.allowKey r.broken
  return s.push (.scalar .plain r.text)

/-- Reads a literal or folded scalar. -/
def readBlock (s : Scanner) (isFolded : Bool) : Except Fault Scanner := do
  let s := (s.noteKey.allowKey true).unrollLoose
  let b ← block isFolded s.indent (s.rest.drop 1)
  let s := { s with rest := b.rest, atLineStart := true }
  if isFolded && b.isMarginal then return s.push .marginalScalar
  return s.push (.scalar (if isFolded then .folded else .literal) b.text)

/-! ### Documents and directives -/

/-- Leaves all blocks. -/
def leaveBlocks (s : Scanner) : Except Fault Scanner :=
  (s.unroll (-1)).dropKey.map (·.allowKey false)

/-- Reads the end of the text. -/
def readEnd (s : Scanner) : Except Fault Scanner := do
  if s.keys.any fun k => k.isRequired && k.isPossible then throw .key
  let keys := s.keys.map fun k => { k with isPossible := false }
  let s ← { s with keys := keys }.leaveBlocks
  return s.push .endOfText

/-- Reads a document marker. Nothing but a comment may follow the end of a
document on its line. -/
def readMarker (s : Scanner) (t : Token) : Except Fault Scanner := do
  let s ← s.leaveBlocks
  let s := (s.advance 3).push t
  if t = .documentEnd then
    let (s, _) ← s.skipBlanks true
    if isLineEnd s.rest.char then return s else throw .documentEnd
  else return s

/-- The greatest number of digits of either number of a version. -/
def maxVersionDigits : Nat := 9

/-- Skips a number of a version. -/
def skipNumber (s : Source) : Except Fault Source :=
  let n := (s.takeWhile fun p => p.char.isDigit).length
  if n = 0 ∨ maxVersionDigits < n then .error .directive else .ok (s.drop n)

/-- The token of a directive with a name, and what follows it. A directive that
is not known takes the whole line. -/
def directive (name : String) (s : Source) : Except Fault (Token × Source) := do
  if name = "YAML" then
    let rest ← skipNumber s
    if rest.char ≠ '.' then throw .directive
    return (.version, ← skipNumber (rest.drop 1))
  else if name = "TAG" then
    let (handle, expansion, rest) ← Tag.readDirective s
    return (.tagHandle handle expansion, rest)
  else return (.otherDirective, s.dropWhile fun p => !isLineEnd p.char)

/-- Reads a directive. Its name stands right behind the percent sign, and nothing
but a comment follows it on its line. -/
def readDirective (s : Scanner) : Except Fault Scanner := do
  let s ← s.leaveBlocks
  let line : Source := s.rest.drop 1
  let name := (line.takeWhile fun p => isWordChar p.char).map Spot.char
  let behind : Source := line.drop name.length
  if name.isEmpty || !isGap behind.char then throw .directive
  let (t, rest) ← directive (String.ofList name) (behind.dropWhile fun p => isBlank p.char)
  let (s, _) ← (s.moveTo rest).skipBlanks true
  if isLineEnd s.rest.char then return s.push t else throw .directive

/-! ### Scanning -/

/-- Reads the token that starts at the first character. -/
def readToken (s : Scanner) : Except Fault Scanner :=
  let c := s.rest.char
  let next := s.rest.charAt 1
  if c = '[' then s.openBracket .openSequence
  else if c = '\x7b' then s.openBracket .openMapping
  else if c = ']' then s.closeBracket .closeSequence
  else if c = '\x7d' then s.closeBracket .closeMapping
  else if c = ',' then s.readComma
  else if c = '-' && isGap next then s.readEntry
  else if c = '?' && isGap next then s.readKey
  else if c = ':' && isGap next then s.readValue
  else if c = ':' && s.inFlow && (isFlow next || s.adjacentAt == some s.rest.offset) then
    s.readAdjacentValue
  else if c = '*' then s.readAnchor .reference
  else if c = '&' then s.readAnchor .anchor
  else if c = '!' then s.readTag
  else if c = '|' && !s.inFlow then s.readBlock false
  else if c = '>' && !s.inFlow then s.readBlock true
  else if c = '\x27' then s.readQuoted '\x27' .singleQuoted
  else if c = '\x22' then s.readQuoted '\x22' .doubleQuoted
  else if c = '%' || c = '@' || c = '\x60' then .error .character
  else s.readPlain

/-- Reads the next token; `true` comes with the end of the text. -/
def step (s : Scanner) : Except Fault (Scanner × Bool) := do
  let s ← s.skipGap
  let s ← s.dropStaleKey
  let s := s.unroll s.rest.column
  if s.rest.char = endChar then return (← s.readEnd, true)
  if s.rest.column = 0 then
    if s.rest.char = '%' then return (← s.readDirective, false)
    if s.rest.startsMarker '-' then return (← s.readMarker .documentStart, false)
    if s.rest.startsMarker '.' then return (← s.readMarker .documentEnd, false)
  if (s.rest.column : Int) < s.indent then throw .indentation
  return (← s.readToken, false)

/-- Reads at most so many tokens; the last one is the end or a fault. -/
def run : Nat → Scanner → List Token
  | 0, s => (Token.fault .unexpected :: s.read).reverse
  | n + 1, s =>
    match s.step with
    | .error f => (Token.fault f :: s.read.drop (s.count - s.settledCount)).reverse
    | .ok (s, true) => s.read.reverse
    | .ok (s, false) => run n s

end Scanner

/-- The tokens of a text. Every step but the last takes a character. -/
def Token.ofText (cs : List Char) : List Token :=
  let s := Source.ofText cs
  Scanner.run (s.length + 1) (.start s)

end DocLint.Yaml
