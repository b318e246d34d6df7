/-!
Blank characters and the trimming of texts.

* `isBlank` holds of the characters with the property `White_Space`: the ASCII
  blanks and controls, and the wide, narrow and line-breaking spaces.
* `trimStart`, `trimEnd` and `trim` drop blank characters at the front, at the
  back and at both ends.
-/

namespace DocLint.Text

/-- Whether a character is blank. -/
def isBlank (c : Char) : Bool :=
  let n := c.toNat
  (9 ≤ n && n ≤ 13) || n == 0x20 || n == 0x85 || n == 0xA0 || n == 0x1680 ||
    (0x2000 ≤ n && n ≤ 0x200A) || n == 0x2028 || n == 0x2029 || n == 0x202F ||
    n == 0x205F || n == 0x3000

/-- The text without its leading blanks. -/
def trimStart (s : List Char) : List Char :=
  s.dropWhile isBlank

/-- The text without its trailing blanks. -/
def trimEnd (s : List Char) : List Char :=
  (s.reverse.dropWhile isBlank).reverse

/-- The text without its leading and trailing blanks. -/
def trim (s : List Char) : List Char :=
  trimEnd (trimStart s)

/-- Whether a text holds nothing but blanks. -/
def isAllBlank (s : List Char) : Bool :=
  s.all isBlank

/-- The vertical tab, the next-line control and the ideographic space are blank,
the zero-width space is not. -/
example : ['\x0b', '\u0085', '\u3000'].all isBlank = true ∧ isBlank '\u200b' = false := by decide

end DocLint.Text
