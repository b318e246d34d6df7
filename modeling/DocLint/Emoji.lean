import DocLint.Text.CodePoints
import DocLint.Text.Lines
import DocLint.Violation

/-!
Emoji in documentation.

* `Emoji.Ranges` are the two sets of characters that count: pictographs only,
  or symbols and enclosed characters too.
* `Emoji.runs` are the emoji of a text, as runs that go as far as they can;
  `Emoji.find` puts them together.
* `Emoji.listing` names code points as `U+1F680 U+2705`, with at least four
  digits each.
* `Emoji.scan` reports every line that holds some.
-/

namespace DocLint.Emoji

/-- Which characters count as emoji. -/
inductive Ranges where
  /-- Pictographs, emoticons, transport signs and flags. -/
  | relaxed
  /-- These and dingbats, enclosed characters and technical symbols. -/
  | strict
  deriving DecidableEq, Repr

/-- Pictographs, emoticons, transport signs, flags and their supplements. -/
def relaxed : Text.CodePoints := [
  ⟨0x1F300, 0x1F5FF, 1⟩, ⟨0x1F600, 0x1F64F, 1⟩, ⟨0x1F680, 0x1F6FF, 1⟩,
  ⟨0x1F1E0, 0x1F1FF, 1⟩, ⟨0x1F900, 0x1F9FF, 1⟩, ⟨0x1FA70, 0x1FAFF, 1⟩]

/-- The dingbats, everything between the enclosed characters of the two
planes, and the miscellaneous and technical symbols come on top. -/
def strict : Text.CodePoints := [
  ⟨0x1F300, 0x1F5FF, 1⟩, ⟨0x1F600, 0x1F64F, 1⟩, ⟨0x1F680, 0x1F6FF, 1⟩,
  ⟨0x1F1E0, 0x1F1FF, 1⟩, ⟨0x2702, 0x27B0, 1⟩, ⟨0x24C2, 0x1F251, 1⟩,
  ⟨0x1F900, 0x1F9FF, 1⟩, ⟨0x1FA70, 0x1FAFF, 1⟩, ⟨0x2600, 0x26FF, 1⟩,
  ⟨0x2300, 0x23FF, 1⟩]

namespace Ranges

/-- The code points of a set. -/
def codePoints : Ranges → Text.CodePoints
  | .relaxed => Emoji.relaxed
  | .strict => Emoji.strict

/-- The name of a set. -/
def name : Ranges → String
  | .relaxed => "relaxed"
  | .strict => "strict"

/-- The set of a name. -/
def ofName? (s : String) : Option Ranges :=
  [relaxed, strict].find? (·.name == s)

end Ranges

/-- Whether a character counts as emoji. -/
def isEmoji (r : Ranges) (c : Char) : Bool :=
  r.codePoints.has c.toNat

/-- The runs of emoji in a text, each as long as can be. -/
def runs (r : Ranges) (s : List Char) : List (List Char) :=
  (s.splitBy fun c d => isEmoji r c == isEmoji r d).filter fun run => run.any (isEmoji r)

/-- The emoji of a text: its runs, put together in order. -/
def find (r : Ranges) (s : List Char) : List Char :=
  (runs r s).flatten

/-- What stands between runs keeps them apart. -/
example : runs .relaxed "🚀🚀 a🚀".toList = ["🚀🚀".toList, "🚀".toList] := by decide

/-! ### Naming code points -/

/-- A hexadecimal digit, letters in upper case. -/
def hexDigit (n : Nat) : Char :=
  if n < 10 then Char.ofNat (0x30 + n) else Char.ofNat (0x41 + (n - 10))

/-- The last hexadecimal digits of a number. -/
def hexDigits : Nat → Nat → List Char
  | 0, _ => []
  | places + 1, n => hexDigits places (n / 16) ++ [hexDigit (n % 16)]

/-- The name of a code point, with four digits or as many as it takes. -/
def codePointName (c : Char) : List Char :=
  let n := c.toNat
  'U' :: '+' :: hexDigits (if n < 0x10000 then 4 else if n < 0x100000 then 5 else 6) n

/-- The names of the code points of a text, with blanks between them. -/
def listing : List Char → List Char
  | [] => []
  | [c] => codePointName c
  | c :: cs => codePointName c ++ ' ' :: listing cs

/-! ### The check of a text -/

/-- The defect of a line that holds the given emoji. -/
def violation (number : Nat) (found line : List Char) : Violation :=
  .atLine number .emoji (String.ofList ("emoji ".toList ++ listing found)) (String.ofList line)

/-- The lines of a text that hold emoji. -/
def scan (r : Ranges) (content : String) : List Violation :=
  (Text.numberedLines content.toList).filterMap fun l =>
    let found := find r l.2
    if found.isEmpty then none else some (violation l.1 found l.2)

/-- Short code points are filled up to four digits. -/
example : listing "é✅🚀".toList = "U+00E9 U+2705 U+1F680".toList := by decide

end DocLint.Emoji
