import DocLint.Text.Utf8

/-!
The names that a directory can bind.

* `FileName` is a byte string that is not empty, holds no slash and is neither
  of the two names made of dots alone that stand for a directory itself and
  for the one above it. Any other bytes may occur, well-formed UTF-8 or not.
* Names are ordered by their bytes.
* `FileName.extension?` is what follows the last dot, unless that dot opens
  the name.
-/

namespace DocLint

/-- The byte that separates the names of a path. -/
def slash : UInt8 := 0x2F

/-- The byte of a full stop. -/
def dot : UInt8 := 0x2E

/-- Whether a directory can bind a byte string. -/
def IsFileName (bs : List UInt8) : Prop :=
  bs ≠ [] ∧ bs ≠ [dot] ∧ bs ≠ [dot, dot] ∧ slash ∉ bs

instance : DecidablePred IsFileName := fun bs =>
  inferInstanceAs (Decidable (bs ≠ [] ∧ bs ≠ [dot] ∧ bs ≠ [dot, dot] ∧ slash ∉ bs))

/-- A name that a directory can bind. -/
structure FileName where
  bytes : List UInt8
  valid : IsFileName bytes
  deriving DecidableEq

namespace FileName

/-- The name with the given bytes, if they can be one. -/
def ofBytes? (bs : List UInt8) : Option FileName :=
  if h : IsFileName bs then some ⟨bs, h⟩ else none

/-- The name with the given characters, if they can be one. -/
def ofString? (s : String) : Option FileName :=
  ofBytes? (Text.Utf8.encode s.toList)

/-- The characters of a name, with replacement characters where it is not
well-formed UTF-8. -/
def text (n : FileName) : List Char :=
  Text.Utf8.decodeLossy n.bytes

/-- Whether a name is written with the given characters. -/
def isWritten (n : FileName) (s : String) : Bool :=
  n.bytes == Text.Utf8.encode s.toList

instance : LT FileName := ⟨fun a b => a.bytes < b.bytes⟩

instance (a b : FileName) : Decidable (a < b) :=
  inferInstanceAs (Decidable (a.bytes < b.bytes))

/-- The bytes after the last dot; none without a dot, and none if the only
bytes before that dot are none at all. -/
def extension? (n : FileName) : Option (List UInt8) :=
  let back := n.bytes.reverse
  match back.dropWhile (· != dot) with
  | _ :: _ :: _ => some (back.takeWhile (· != dot)).reverse
  | _ => none

/-- Only the last dot counts, and one that opens the name does not. -/
example :
    (["a.tar.gz", "a.", ".gz", "a", "..gz"].map fun s =>
      ((ofString? s).bind extension?).map Text.Utf8.decodeLossy) =
    [some ['g', 'z'], some [], none, none, some ['g', 'z']] := by decide

end FileName

end DocLint
