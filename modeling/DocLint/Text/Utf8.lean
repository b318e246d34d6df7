/-!
Characters as UTF-8 bytes.

* `encode` writes characters as bytes.
* `units` reads bytes one after another; each unit is a character or a longest
  stretch of bytes that begins a character and is not one.
* `decodeLossy` puts the replacement character for every ill-formed unit, and
  `decode?` refuses them.
-/

namespace DocLint.Text.Utf8

/-- The bytes of a text. -/
def encode (s : List Char) : List UInt8 :=
  s.flatMap String.utf8EncodeChar

/-- A character of which some bytes are read: how many are missing, the range
of the next one, and the bits so far. The range is narrower than that of all
continuation bytes where a character could be written shorter, is a surrogate
or lies above the last code point. -/
structure Pending where
  missing : Nat
  low : UInt8
  high : UInt8
  code : Nat
  deriving DecidableEq, Repr

/-- What a first byte announces. -/
inductive Lead where
  | char (c : Char)
  | pending (p : Pending)
  | stray
  deriving DecidableEq, Repr

/-- Reads the first byte of a character. -/
def Lead.ofByte (b : UInt8) : Lead :=
  let n := b.toNat
  if n < 0x80 then .char (Char.ofNat n)
  else if n < 0xC2 then .stray
  else if n < 0xE0 then .pending ⟨1, 0x80, 0xBF, n - 0xC0⟩
  else if n = 0xE0 then .pending ⟨2, 0xA0, 0xBF, 0⟩
  else if n = 0xED then .pending ⟨2, 0x80, 0x9F, 0xD⟩
  else if n < 0xF0 then .pending ⟨2, 0x80, 0xBF, n - 0xE0⟩
  else if n = 0xF0 then .pending ⟨3, 0x90, 0xBF, 0⟩
  else if n < 0xF4 then .pending ⟨3, 0x80, 0xBF, n - 0xF0⟩
  else if n = 0xF4 then .pending ⟨3, 0x80, 0x8F, 4⟩
  else .stray

/-- The bits after one more continuation byte. -/
def Pending.add (p : Pending) (b : UInt8) : Nat :=
  p.code * 64 + (b.toNat - 0x80)

/-- The units of a byte string, after the bytes of a pending character; `none`
stands for an ill-formed unit. -/
def unitsAfter : Option Pending → List UInt8 → List (Option Char)
  | none, [] => []
  | some _, [] => [none]
  | none, b :: bs =>
    match Lead.ofByte b with
    | .char c => some c :: unitsAfter none bs
    | .pending p => unitsAfter (some p) bs
    | .stray => none :: unitsAfter none bs
  | some p, b :: bs =>
    if p.low ≤ b ∧ b ≤ p.high then
      if p.missing ≤ 1 then some (Char.ofNat (p.add b)) :: unitsAfter none bs
      else unitsAfter (some ⟨p.missing - 1, 0x80, 0xBF, p.add b⟩) bs
    else
      none ::
        match Lead.ofByte b with
        | .char c => some c :: unitsAfter none bs
        | .pending q => unitsAfter (some q) bs
        | .stray => none :: unitsAfter none bs

/-- The units of a byte string. -/
def units (bs : List UInt8) : List (Option Char) :=
  unitsAfter none bs

/-- The text of any bytes, with the replacement character for every ill-formed
unit. -/
def decodeLossy (bs : List UInt8) : List Char :=
  (units bs).map (·.getD '\ufffd')

/-- The text of bytes that are well-formed. -/
def decode? (bs : List UInt8) : Option (List Char) :=
  (units bs).mapM id

/-- A cut-off character is one unit, a stray continuation byte one each, and a
surrogate three. -/
example : decodeLossy [0x61, 0xE2, 0x82, 0x62, 0x80, 0xED, 0xA0, 0x80] =
    ['a', '\ufffd', 'b', '\ufffd', '\ufffd', '\ufffd', '\ufffd'] := by decide

end DocLint.Text.Utf8
