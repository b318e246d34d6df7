import DocLint.Text.Blank
import DocLint.Text.Lines
import DocLint.Violation

/-!
Fenced code blocks: each has to be tagged and closed.

* `Fence.ofLine?` recognises a fence line: blanks, then three or more of one
  of the two fence characters, then anything.
* `Tracker` follows the fence lines of a file. Outside a block a fence opens
  one; inside, a fence of the same character closes it and a fence of the other
  character is part of the code.
* `Tracker.finish` adds the block that nothing closed.
* `Fence.scan` is a tracker run over the lines of a text.
-/

namespace DocLint

/-- The two characters that fences are made of. -/
inductive Fence.Mark where
  | backtick
  | tilde
  deriving DecidableEq, Repr

/-- The character itself. -/
def Fence.Mark.char : Fence.Mark → Char
  | .backtick => '\x60'
  | .tilde => '~'

/-- A fence line: its character, and what follows the run of it. -/
structure Fence where
  mark : Fence.Mark
  rest : List Char
  deriving DecidableEq, Repr

namespace Fence

/-- The fence character that a text starts with. -/
def Mark.ofFront? : List Char → Option Mark
  | c :: _ => if c = Mark.backtick.char then some .backtick
      else if c = Mark.tilde.char then some .tilde else none
  | [] => none

/-- The fence that a line is, if it is one. -/
def ofLine? (line : List Char) : Option Fence :=
  let s := Text.trimStart line
  match Mark.ofFront? s with
  | none => none
  | some m =>
    if 3 ≤ (s.takeWhile (· = m.char)).length then some ⟨m, s.dropWhile (· = m.char)⟩ else none

/-- Whether a fence names a language or a path. -/
def isTagged (f : Fence) : Bool :=
  !Text.isAllBlank f.rest

/-- What a fence line does where it stands. -/
inductive Event where
  | openTagged
  | openUntagged
  | close
  /-- A fence of the other character inside a block. -/
  | literal
  deriving DecidableEq, Repr

/-- The message of a fence that names nothing. -/
def missingTagMessage : String := "missing language/path tag"

/-- The message of a block that nothing closes. -/
def unclosedMessage (line : Nat) : String :=
  "unclosed code block opened at line " ++ toString line

/-- The defect of an opening fence without a tag. -/
def missingTag (number : Nat) (line : List Char) : Violation :=
  .atLine number .missingFenceTag missingTagMessage (String.ofList (Text.trimEnd line))

/-- The defect of a block that is open at the end of the file. -/
def unclosed (number : Nat) : Violation :=
  .atLine number .unclosedFence (unclosedMessage number) ""

/-- An open block: its fence character and the line that opened it. -/
structure Block where
  mark : Mark
  line : Nat
  deriving DecidableEq, Repr

/-- The state between two lines: the open block, and the defects so far, the
last one first. -/
structure Tracker where
  block : Option Block
  found : List Violation
  deriving DecidableEq, Repr

namespace Tracker

/-- The state before the first line. -/
def start : Tracker := ⟨none, []⟩

/-- Whether a block is open. -/
def inBlock (t : Tracker) : Bool :=
  t.block.isSome

/-- Reads one line. Lines that are no fences leave the state alone. -/
def feed (t : Tracker) (number : Nat) (line : List Char) : Tracker × Option Event :=
  match ofLine? line, t.block with
  | none, _ => (t, none)
  | some f, none =>
    if f.isTagged then (⟨some ⟨f.mark, number⟩, t.found⟩, some .openTagged)
    else (⟨some ⟨f.mark, number⟩, missingTag number line :: t.found⟩, some .openUntagged)
  | some f, some b =>
    if f.mark = b.mark then (⟨none, t.found⟩, some .close) else (t, some .literal)

/-- Reads lines one after another. -/
def feedAll (t : Tracker) (ls : List (Nat × List Char)) : Tracker :=
  ls.foldl (fun t l => (t.feed l.1 l.2).1) t

/-- The defects at the end of the file. -/
def finish (t : Tracker) : List Violation :=
  t.found.reverse ++ (t.block.map fun b => unclosed b.line).toList

end Tracker

/-- The fence defects of a text. -/
def scan (content : String) : List Violation :=
  (Tracker.start.feedAll (Text.numberedLines content.toList)).finish

end Fence

end DocLint
