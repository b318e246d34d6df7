import DocLint.Text.Hexadecimal
import DocLint.Yaml.Source

/-!
YAML tags.

* `Tag` is a tag whose handle is replaced by what it stands for. `Tag.kind` is
  what the tag says about its node.
* `Tag.read` reads a tag as it is written, `Tag.readDirective` what a tag
  directive says about a handle. In both a percent sign with two hexadecimal
  digits stands for a byte of a character.
-/

namespace DocLint.Yaml

/-- A tag: what its handle stands for, and the rest. -/
structure Tag where
  handle : List Char
  suffix : List Char
  deriving DecidableEq, Repr

namespace Tag

/-! ### The meaning of a tag -/

/-- What a tag says about its node: that it is nothing, a text, a text written in
Base64, a value of another type, what only its author knows, or no more than
that there is a tag. -/
inductive Kind where
  | null
  | text
  | binary
  | typed (name : String)
  | unknown
  | unspecific
  deriving DecidableEq, Repr

/-- The names of the types whose values are no texts. -/
def typeNames : List String :=
  ["bool", "int", "float", "timestamp", "seq", "map"]

/-- The names of more types. They do not count behind two exclamation marks. -/
def measureNames : List String :=
  ["time", "radians", "degrees"]

/-- The kind with a name, which is one of the given types unless it is nothing
or a text. -/
def Kind.ofName? (types : List String) (name : String) : Option Kind :=
  if name = "null" then some .null
  else if name = "str" then some .text
  else if name = "binary" then some .binary
  else if types.contains name then some (.typed name)
  else none

/-- The tag in one piece: an exclamation mark stands between its parts, and for a
handle that is nothing else. -/
def written (t : Tag) : List Char :=
  if t.handle = ['!'] then '!' :: t.suffix else t.handle ++ '!' :: t.suffix

/-- The handle of the tags that every document knows. -/
def coreHandle : List Char := "tag:yaml.org,2002:".toList

/-- What the names of kinds stand behind, and the types that count there. -/
def marks : List (List Char × List String) :=
  [(['!'], typeNames ++ measureNames), (['!', '!'], typeNames),
    (coreHandle ++ ['!'], typeNames ++ measureNames)]

/-- What a tag says about its node. One or two exclamation marks by themselves
say nothing more. -/
def kind (t : Tag) : Kind :=
  let w := t.written
  let named := marks.findSome? fun (mark, types) =>
    if mark.isPrefixOf w then Kind.ofName? types (String.ofList (w.drop mark.length)) else none
  if w = ['!'] ∨ w = ['!', '!'] then .unspecific else named.getD .unknown

/-- A name counts behind any mark, and only there. -/
example :
    ([⟨['!'], "int".toList⟩, ⟨coreHandle, "str".toList⟩, ⟨[], "!null".toList⟩,
      ⟨[], "tag:yaml.org,2002:null".toList⟩, ⟨['!'], "Int".toList⟩, ⟨['!'], "time".toList⟩,
      ⟨[], "!time".toList⟩, ⟨[], ['!']⟩] : List Tag).map kind =
    [.typed "int", .text, .null, .unknown, .unknown, .typed "time", .unknown, .unspecific] := by
  decide +kernel

/-! ### Percent signs -/

/-- The byte that a percent sign and two digits stand for. -/
def escapedByte? (s : Source) : Option Nat := do
  if s.char ≠ '%' then none
  return 16 * (← Text.hexValue? (s.charAt 1)) + (← Text.hexValue? (s.charAt 2))

/-- The number of bytes of a character, told by the first one. -/
def byteCount? (b : Nat) : Option Nat :=
  if b < 0x80 then some 1
  else if b < 0xC0 then none
  else if b < 0xE0 then some 2
  else if b < 0xF0 then some 3
  else if b < 0xF8 then some 4
  else none

/-- The number that a byte and `n` continuation bytes make, side by side. -/
def escapedCode? : Nat → Nat → Source → Option Nat
  | 0, code, _ => some code
  | n + 1, code, s => do
    let b ← escapedByte? s
    if 0x80 ≤ b ∧ b < 0xC0 then escapedCode? n (0x100 * code + b) (s.drop 3) else none

/-- The character that stands escaped at the front, and the number of its
bytes. -/
def escapedChar? (s : Source) : Option (Char × Nat) := do
  let b ← escapedByte? s
  let n ← byteCount? b
  let c ← Text.charOfCode? (← escapedCode? (n - 1) b (s.drop 3))
  return (c, n)

/-- Reads characters as long as they pass a test. -/
def readWhile (test : Char → Bool) (s : Source) : Except Fault (List Char × Source) :=
  match s with
  | [] => .ok ([], [])
  | p :: rest =>
    if !test p.char then .ok ([], p :: rest)
    else if p.char = '%' then
      match escapedChar? (p :: rest) with
      | none => .error .tag
      | some (c, n) =>
        match readWhile test (rest.drop (3 * n - 1)) with
        | .error e => .error e
        | .ok (cs, rest) => .ok (c :: cs, rest)
    else
      match readWhile test rest with
      | .error e => .error e
      | .ok (cs, rest) => .ok (p.char :: cs, rest)
termination_by s.length
decreasing_by all_goals (simp; try omega)

/-! ### Reading -/

/-- Reads a handle: an exclamation mark, and the word behind it with another one
if there is one. -/
def readHandle (s : Source) : List Char × Source :=
  let word := ((s.drop 1).takeWhile fun p => isWordChar p.char).map Spot.char
  let rest : Source := s.drop (word.length + 1)
  if rest.char = '!' then ('!' :: (word ++ ['!']), rest.drop 1) else ('!' :: word, rest)

/-- Whether a handle ends with an exclamation mark of its own. -/
def isClosed (handle : List Char) : Bool :=
  handle.tail.getLast? == some '!'

/-- Reads a tag: its handle, empty if it has none, the rest of it, and what
follows. A tag in angle brackets and one that is nothing but an exclamation mark
have no handle. -/
def read (s : Source) : Except Fault (List Char × List Char × Source) := do
  if s.charAt 1 = '<' then
    let (uri, rest) ← readWhile isUriChar (s.drop 2)
    if rest.char = '>' then return ([], uri, rest.drop 1) else throw .tag
  else
    let (handle, rest) := readHandle s
    let (suffix, rest) ← readWhile isTagChar rest
    if isClosed handle then
      if suffix.isEmpty then throw .tag else return (handle, suffix, rest)
    else
      let suffix := handle.tail ++ suffix
      if suffix.isEmpty then return ([], ['!'], rest) else return (['!'], suffix, rest)

/-- Reads what a tag directive says: a handle, what it stands for, and what
follows. -/
def readDirective (s : Source) : Except Fault (List Char × List Char × Source) := do
  if s.char ≠ '!' then throw .directive
  let (handle, rest) := readHandle s
  if handle ≠ ['!'] ∧ !isClosed handle then throw .directive
  let rest : Source := rest.dropWhile fun p => isBlank p.char
  if rest.char ≠ '!' ∧ !isTagChar rest.char then throw .directive
  let (expansion, rest) ← readWhile isUriChar rest
  if isGap rest.char then return (handle, expansion, rest) else throw .directive

end Tag

end DocLint.Yaml
