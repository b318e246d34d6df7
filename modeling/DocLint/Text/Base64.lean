/-!
Base64: bytes written with letters, four letters for three bytes.

* `Base64.value?` is the value of a letter.
* `Base64.group?` reads four letters. One or two equals signs at their end stand
  for bytes that are not there.
* `Base64.decode?` reads groups one after another, any of which may be filled up
  with equals signs, and `Base64.decodeSpaced?` does so among spacing.
-/

namespace DocLint.Text.Base64

/-- The value of a letter, less than 64. -/
def value? (c : Char) : Option Nat :=
  if 'A' ≤ c ∧ c ≤ 'Z' then some (c.toNat - 0x41)
  else if 'a' ≤ c ∧ c ≤ 'z' then some (c.toNat - 0x61 + 26)
  else if '0' ≤ c ∧ c ≤ '9' then some (c.toNat - 0x30 + 52)
  else if c = '+' then some 62
  else if c = '/' then some 63
  else none

/-- The byte across two letters: the first one moved up by a factor of `4 * p`,
and what `16 / p` leaves of the second one. Bits beyond the byte are dropped. -/
def join (p a b : Nat) : UInt8 :=
  UInt8.ofNat (a * (4 * p) + b / (16 / p))

/-- The bytes that four letters write. Bits that belong to no byte do not
count. -/
def group? (a b c d : Char) : Option (List UInt8) := do
  let x ← value? a
  let y ← value? b
  if c = '=' ∧ d = '=' then return [join 1 x y]
  let z ← value? c
  if d = '=' then return [join 1 x y, join 4 y z]
  return [join 1 x y, join 4 y z, join 16 z (← value? d)]

/-- The bytes that letters write, four by four. -/
def decode? : List Char → Option (List UInt8)
  | [] => some []
  | a :: b :: c :: d :: rest => do return (← group? a b c d) ++ (← decode? rest)
  | _ => none

/-- Whether a character may stand anywhere among the letters: the blank, the
tab, the line feed, the form feed and the carriage return. -/
def isSpacing (c : Char) : Bool :=
  c == ' ' || c == '\t' || c == '\n' || c == '\x0c' || c == '\r'

/-- The bytes that letters write among spacing. -/
def decodeSpaced? (s : List Char) : Option (List UInt8) :=
  decode? (s.filter (!isSpacing ·))

/-- Letters are taken by fours, groups with equals signs may stand anywhere, and
left-over bits do not count. -/
example : decodeSpaced? "ZG9j cw==".toList = some [0x64, 0x6F, 0x63, 0x73] ∧
    decode? "/+8=".toList = some [0xFF, 0xEF] ∧
    decode? "Zh==ZG9=".toList = some [0x66, 0x64, 0x6F] ∧
    decode? "abc".toList = none ∧ decode? "Z===".toList = none ∧
    decode? "Zg=a".toList = none := by decide +kernel

end DocLint.Text.Base64
