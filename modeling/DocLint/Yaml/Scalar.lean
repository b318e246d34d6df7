import DocLint.Text.Blank
import DocLint.Text.Hexadecimal
import DocLint.Yaml.Source

/-!
The scalars of YAML, read from the place where they start.

* `Gap` is a stretch of blanks and line ends within a scalar. Blanks on one
  line stay, a single line end becomes a blank, and of several the first one
  vanishes.
* `plain` reads a plain scalar, `quoted` what follows an opening quote, and
  `block` what follows the sign of a literal or folded scalar.
-/

namespace DocLint.Yaml

/-- How a scalar is written. -/
inductive Style where
  | plain
  | singleQuoted
  | doubleQuoted
  | literal
  | folded
  deriving DecidableEq, Repr

/-- Whether a scalar is written in quotes. -/
def Style.isQuoted : Style → Bool
  | .singleQuoted | .doubleQuoted => true
  | _ => false

/-! ### Gaps -/

/-- A stretch of blanks and line ends: the blanks before a line end, last one
first; whether there was a line end; whether the first one is to be replaced by
a blank; and the number of further ones. -/
structure Gap where
  blanks : List Char
  broken : Bool
  folds : Bool
  further : Nat

namespace Gap

/-- The stretch without anything. -/
def none : Gap := ⟨[], false, false, 0⟩

/-- The stretch after a line end that was escaped. -/
def escaped : Gap := ⟨[], true, false, 0⟩

/-- The stretch with one more blank; blanks after a line end do not count. -/
def addBlank (g : Gap) (c : Char) : Gap :=
  if g.broken then g else { g with blanks := c :: g.blanks }

/-- The stretch with one more line end. -/
def addBreak (g : Gap) : Gap :=
  if g.broken then { g with further := g.further + 1 } else ⟨[], true, true, 0⟩

/-- What the stretch adds to a scalar whose characters are given last one
first. -/
def close (g : Gap) (text : List Char) : List Char :=
  if g.broken then
    if g.folds && g.further = 0 then ' ' :: text else List.replicate g.further '\n' ++ text
  else g.blanks ++ text

end Gap

/-! ### Plain scalars -/

/-- A scalar that was read: its text, what follows, and whether a line end was
read with it. -/
structure Reading where
  text : List Char
  rest : Source
  broken : Bool

/-- Reads on in a plain scalar of which `text` is read, last character first;
`gap` is the stretch before the first character, if that follows one. A tab may
take the place of indentation only before a line end or a comment, which is then
skipped. -/
def plainFrom (indent : Int) (inFlow atLineStart inComment : Bool) (text : List Char)
    (gap : Option Gap) : Source → Except Fault Reading
  | [] => .ok ⟨text.reverse, [], false⟩
  | p :: s =>
    let g := gap.getD .none
    if inComment && !isLineEnd p.char then
      plainFrom indent inFlow atLineStart true text gap s
    else if isBlank p.char then
      if g.broken && p.char == '\t' && decide ((p.column : Int) < indent) then
        if Source.isLineDone (p :: s) then plainFrom indent inFlow atLineStart true text (some g) s
        else .error .tab
      else plainFrom indent inFlow atLineStart false text (some (g.addBlank p.char)) s
    else if p.char = '\n' then
      plainFrom indent inFlow atLineStart false text (some g.addBreak) s
    else
      let stop (_ : Unit) : Except Fault Reading := .ok ⟨text.reverse, p :: s, g.broken⟩
      let isEnd := p.char == endChar || !Source.continuesPlain (p :: s) inFlow
      match gap with
      | none =>
        if isEnd then stop () else plainFrom indent inFlow atLineStart false (p.char :: text) none s
      | some g =>
        if !inFlow && !text.isEmpty && decide ((p.column : Int) < indent) then stop ()
        else if (g.broken || (text.isEmpty && atLineStart)) &&
            Source.startsAnyMarker (p :: s) then stop ()
        else if p.char = '#' then stop ()
        else if inFlow && p.char == '-' && isFlow (Source.charAt (p :: s) 1) then .error .plain
        else if isEnd then stop ()
        else plainFrom indent inFlow atLineStart false (p.char :: g.close text) none s

/-- Reads a plain scalar. Its further lines are indented by at least `indent`
outside brackets; a scalar without a character is none. -/
def plain (indent : Int) (inFlow atLineStart : Bool) (s : Source) : Except Fault Reading :=
  match plainFrom indent inFlow atLineStart false [] (some .none) s with
  | .error e => .error e
  | .ok r => if r.text.isEmpty then .error .plain else .ok r

/-! ### Quoted scalars -/

/-- The character that a single character after a backslash stands for. -/
def simpleEscape? : Char → Option Char
  | '0' => some '\x00'
  | 'a' => some '\x07'
  | 'b' => some '\x08'
  | 't' => some '\t'
  | '\t' => some '\t'
  | 'n' => some '\n'
  | 'v' => some '\x0b'
  | 'f' => some '\x0c'
  | 'r' => some '\r'
  | 'e' => some '\x1b'
  | ' ' => some ' '
  | '\x22' => some '\x22'
  | '/' => some '/'
  | '\\' => some '\\'
  | 'N' => some '\u0085'
  | '_' => some '\u00a0'
  | 'L' => some '\u2028'
  | 'P' => some '\u2029'
  | _ => none

/-- The number of digits that name a character after a backslash. -/
def escapeDigits : Char → Nat
  | 'x' => 2
  | 'u' => 4
  | 'U' => 8
  | _ => 0

/-- The character that the text after a backslash stands for, and how many
characters name it. -/
def escape? (s : Source) : Option (Char × Nat) :=
  match simpleEscape? s.char with
  | some c => some (c, 1)
  | none =>
    match escapeDigits s.char with
    | 0 => none
    | n =>
      ((Text.hexNumber? (((s.drop 1).take n).map Spot.char)).bind Text.charOfCode?).map (·, n + 1)

/-- Reads on in a quoted scalar of which `text` is read, last character first;
`gap` is the stretch before the first character, if that follows one. Further
lines are indented by at least `indent`, but the quote right behind an escaped
line end closes the scalar anywhere. -/
def quotedFrom (quote : Char) (indent : Int) (text : List Char) (gap : Option Gap) (s : Source) :
    Except Fault (List Char × Source) :=
  match s with
  | [] => .error .quoted
  | p :: s =>
    let g := gap.getD .none
    if isBlank p.char then
      if g.broken && p.char == '\t' && decide ((p.column : Int) < indent) then .error .tab
      else quotedFrom quote indent text (some (g.addBlank p.char)) s
    else if p.char = '\n' then quotedFrom quote indent text (some g.addBreak) s
    else if p.char = endChar then .error .quoted
    else if gap.isSome && p.column == 0 && Source.startsAnyMarker (p :: s) then .error .quoted
    else if gap.isSome && decide ((p.column : Int) < indent) then .error .indentation
    else
      let text := g.close text
      if p.char = '\x27' && quote == '\x27' && Source.char s == '\x27' then
        quotedFrom quote indent ('\x27' :: text) none (s.drop 1)
      else if p.char = quote then .ok (text.reverse, s)
      else if p.char = '\\' && quote == '\x22' then
        if Source.char s = '\n' then
          if Source.charAt s 1 = quote then .ok (text.reverse, s.drop 2)
          else quotedFrom quote indent text (some .escaped) (s.drop 1)
        else
          match escape? s with
          | some (c, n) => quotedFrom quote indent (c :: text) none (s.drop n)
          | none => .error .escape
      else quotedFrom quote indent (p.char :: text) none s
termination_by s.length
decreasing_by all_goals (simp; try omega)

/-- Reads what follows an opening quote, the closing one included. -/
def quoted (quote : Char) (indent : Int) (s : Source) : Except Fault (List Char × Source) :=
  quotedFrom quote indent [] (some .none) s

/-! ### Block scalars -/

/-- What happens to the line ends at the end of a block scalar. -/
inductive Chomping where
  | strip
  | clip
  | keep
  deriving DecidableEq, Repr

/-- The chomping that a sign asks for. -/
def chomping? : Char → Option Chomping
  | '+' => some .keep
  | '-' => some .strip
  | _ => none

/-- The signs after that of a block scalar: how to chomp, and the indentation if
it is given. Either may come first. -/
def blockSigns (s : Source) : Except Fault (Chomping × Nat × Source) :=
  let digit (s : Source) : Except Fault (Nat × Source) :=
    if s.char = '0' then .error .block
    else if s.char.isDigit then .ok (s.char.toNat - 0x30, s.drop 1)
    else .ok (0, s)
  match chomping? s.char with
  | some c => (digit (s.drop 1)).map fun (n, s) => (c, n, s)
  | none =>
    match digit s with
    | .error e => .error e
    | .ok (n, s) =>
      match n, chomping? s.char with
      | 0, _ => .ok (.clip, 0, s)
      | n, some c => .ok (c, n, s.drop 1)
      | n, none => .ok (.clip, n, s)

/-- Skips empty lines and the indentation of the next one, at most `indent`
blanks of it; `breaks` counts line ends. -/
def skipIndentation (indent breaks : Nat) : Source → Nat × Source
  | [] => (breaks, [])
  | p :: s =>
    if p.char = ' ' && decide (p.column < indent) then skipIndentation indent breaks s
    else if p.char = '\n' then skipIndentation indent (breaks + 1) s
    else (breaks, p :: s)

/-- Skips empty lines and all blanks before the next one, and finds the
greatest column that these blanks reach. -/
def findIndentation (deepest breaks : Nat) : Source → Nat × Nat × Source
  | [] => (deepest, breaks, [])
  | p :: s =>
    if p.char = ' ' then findIndentation deepest breaks s
    else if p.char = '\n' then findIndentation (max deepest p.column) (breaks + 1) s
    else (max deepest p.column, breaks, p :: s)

/-- The state between two lines of a block scalar: the text so far, last
character first; the line end before the line, and the number of empty lines
before it; whether the last line started with a blank. -/
structure BlockState where
  text : List Char
  lastBreak : Bool
  empty : Nat
  afterBlank : Bool

/-- The text when a line follows: the line end before it is replaced by a blank
in a folded scalar, unless there are empty lines or a line starts with a
blank. -/
def BlockState.join (b : BlockState) (isFolded startsBlank : Bool) : List Char :=
  let breaks := List.replicate b.empty '\n'
  if isFolded && b.lastBreak && !b.afterBlank && !startsBlank then
    if b.empty = 0 then ' ' :: b.text else breaks ++ b.text
  else breaks ++ (if b.lastBreak then ['\n'] else []) ++ b.text

/-- The line ends behind the last line of a block scalar that is indented by
`indent`. A last line that the source ends on counts as ended. -/
def BlockState.tail (b : BlockState) (c : Chomping) (indent : Nat) (rest : Source) : List Char :=
  let last := (if b.lastBreak then ['\n'] else []) ++
    (if rest.char == endChar && decide (max indent 1 ≤ rest.column) then ['\n'] else [])
  match c with
  | .strip => []
  | .clip => last
  | .keep => last ++ List.replicate b.empty '\n'

/-- Reads lines of a block scalar as long as they are indented by `indent`. -/
def blockLines (isFolded : Bool) (indent : Nat) : Nat → BlockState → Source → BlockState × Source
  | 0, b, s => (b, s)
  | fuel + 1, b, s =>
    if s.column ≠ indent || s.char == endChar || (indent == 0 && s.startsMarker '.') then (b, s)
    else
      let startsBlank := isBlank s.char
      let line := s.takeWhile fun p => !isLineEnd p.char
      let rest := s.dropWhile fun p => !isLineEnd p.char
      let text := (line.map Spot.char).reverse ++ b.join isFolded startsBlank
      if Source.char rest = endChar then (⟨text, false, 0, startsBlank⟩, rest)
      else
        let (breaks, rest) := skipIndentation indent 0 (rest.drop 1)
        blockLines isFolded indent fuel ⟨text, true, breaks, startsBlank⟩ rest

/-- The text of a block scalar without any line, at the end of the source. -/
def emptyBlock (c : Chomping) (hasBreak : Bool) (breaks : Nat) : List Char :=
  match c with
  | .strip => []
  | .clip => if hasBreak then ['\n'] else []
  | .keep =>
    if !hasBreak then []
    else if breaks = 0 then ['\n']
    else List.replicate breaks '\n'

/-- The indentation of the lines of a block scalar, the number of empty lines
before the first one, and what follows. -/
def blockIndentation (indent : Int) (given : Nat) (s : Source) : Nat × Nat × Source :=
  if given = 0 then
    let (deepest, breaks, s) := findIndentation 0 0 s
    (max deepest (indent + 1).toNat, breaks, s)
  else
    let n := if 0 ≤ indent then indent.toNat + given else given
    let (breaks, s) := skipIndentation n 0 s
    (n, breaks, s)

/-- A block scalar that was read: its text, the column where its lines start, and
what follows. -/
structure BlockReading where
  text : List Char
  column : Nat
  rest : Source

/-- Whether a block scalar has a text that starts at the margin. -/
def BlockReading.isMarginal (b : BlockReading) : Bool :=
  b.column == 0 && !Text.isAllBlank b.text

/-- Reads what follows the sign of a block scalar, inside a block that is
indented by `indent`. -/
def block (isFolded : Bool) (indent : Int) (s : Source) : Except Fault BlockReading :=
  match blockSigns s with
  | .error e => .error e
  | .ok (chomp, given, s) =>
    match s.skipBlanks true with
    | .error e => .error e
    | .ok (s, _) =>
      if !isLineEnd s.char then .error .block
      else
        let hasBreak := s.char == '\n'
        let s : Source := if hasBreak then s.drop 1 else s
        if s.char = '\t' then .error .block
        else
          let (n, breaks, s) := blockIndentation indent given s
          if s.char = endChar then
            .ok ⟨emptyBlock chomp hasBreak breaks, n, s⟩
          else if s.column < n && decide (indent < (s.column : Int)) then .error .block
          else
            let (b, rest) := blockLines isFolded n (s.length + 1) ⟨[], false, breaks, false⟩ s
            .ok ⟨b.text.reverse ++ b.tail chomp n rest, n, rest⟩

end DocLint.Yaml
