import DocLint.Path.Name
import DocLint.Text.Pieces

/-!
Paths, as byte strings and as sequences of components.

* `Path` keeps a path as it is written; `Path.components` reads it. Repeated
  slashes, slashes at the end and single dots vanish, except for a single dot
  at the very front of a relative path.
* `Path.Same` is equality of components, `Path.key` the order of paths: one
  component after another, names by their bytes.
* `Path.ofComponents` writes components, `Path.join` continues one path by
  another, `Path.parent?` and `Path.fileName?` take the last component off.
* `Path.below?` is the rest of a path under another, as it is written.
-/

namespace DocLint

/-- One step of a path. -/
inductive Component where
  | root
  | current
  | parent
  | name (n : FileName)
  deriving DecidableEq

namespace Component

/-- The component that a stretch between slashes stands for. -/
def ofPiece? (p : List UInt8) : Option Component :=
  if h : IsFileName p then some (.name ⟨p, h⟩)
  else if p = [dot, dot] then some .parent
  else none

/-- The place of a component in the order of paths. -/
def key : Component → List Nat
  | root => [0]
  | current => [1]
  | parent => [2]
  | name n => 3 :: n.bytes.map UInt8.toNat

/-- How a component other than the root is written. -/
def bytes : Component → List UInt8
  | root => []
  | current => [dot]
  | parent => [dot, dot]
  | name n => n.bytes

end Component

/-- A path as it is written. -/
structure Path where
  bytes : List UInt8
  deriving DecidableEq, Inhabited

namespace Path

/-- The path with the given characters. -/
def ofString (s : String) : Path :=
  ⟨Text.Utf8.encode s.toList⟩

/-- The characters of a path, with replacement characters where it is not
well-formed UTF-8. -/
def text (p : Path) : List Char :=
  Text.Utf8.decodeLossy p.bytes

/-- The characters of a path, as a string. -/
def display (p : Path) : String :=
  String.ofList p.text

/-- The stretches between slashes. -/
def pieces (p : Path) : List (List UInt8) :=
  Text.pieces slash p.bytes

/-- Whether a path starts at the root. -/
def isAbsolute (p : Path) : Bool :=
  p.bytes.head? == some slash

/-- The component that only the front of a path can have. -/
def front (p : Path) : List Component :=
  if p.isAbsolute then [.root]
  else if p.pieces.head? = some [dot] then [.current]
  else []

/-- The components of a path. -/
def components (p : Path) : List Component :=
  p.front ++ p.pieces.filterMap Component.ofPiece?

/-- Two paths are the same if they have the same components. -/
def Same (p q : Path) : Prop :=
  p.components = q.components

instance (p q : Path) : Decidable (p.Same q) :=
  inferInstanceAs (Decidable (p.components = q.components))

/-- The place of a path in the order of paths. -/
def key (p : Path) : List (List Nat) :=
  p.components.map Component.key

/-- The names in a path. -/
def names (p : Path) : List FileName :=
  p.components.filterMap fun
    | .name n => some n
    | _ => none

/-! ### Writing and joining -/

/-- The components with slashes between them. -/
def ofComponents : List Component → Path
  | .root :: cs => ⟨slash :: Text.glue slash (cs.map Component.bytes)⟩
  | cs => ⟨Text.glue slash (cs.map Component.bytes)⟩

/-- The absolute path of names below the root. -/
def ofNames (ns : List FileName) : Path :=
  ofComponents (.root :: ns.map .name)

/-- The relative path made of names. -/
def ofRelativeNames (ns : List FileName) : Path :=
  ofComponents (ns.map .name)

/-- Continues one path by another; an absolute path starts anew. -/
def join (p q : Path) : Path :=
  if q.isAbsolute then q
  else if p.bytes = [] ∨ p.bytes.getLast? = some slash then ⟨p.bytes ++ q.bytes⟩
  else ⟨p.bytes ++ slash :: q.bytes⟩

/-- The path with more bytes at its end. -/
def append (p : Path) (bs : List UInt8) : Path :=
  ⟨p.bytes ++ bs⟩

/-! ### The last component -/

/-- The last component, if it is a name. -/
def fileName? (p : Path) : Option FileName :=
  match p.components.getLast? with
  | some (.name n) => some n
  | _ => none

/-- The extension of the last component. -/
def extension? (p : Path) : Option (List UInt8) :=
  p.fileName?.bind FileName.extension?

/-- The path without its last component; the root and the empty path have
none to lose. -/
def parent? (p : Path) : Option Path :=
  match p.components.getLast? with
  | none | some .root => none
  | some _ => some (ofComponents p.components.dropLast)

/-! ### Paths below a path -/

/-- Whether a path starts with the components of another. -/
def startsWith (p q : Path) : Bool :=
  q.components.isPrefixOf p.components

/-- Whether a stretch between slashes counts for nothing. -/
def isIdle (p : List UInt8) : Bool :=
  p == [] || p == [dot]

/-- The stretches after the first `n` that count. -/
def dropPieces : Nat → List (List UInt8) → List (List UInt8)
  | 0, ps => ps.dropWhile isIdle
  | _ + 1, [] => []
  | n + 1, p :: ps => if isIdle p then dropPieces (n + 1) ps else dropPieces n ps

/-- What a path has below `top`, as it is written there but without idle
stretches at its two ends; `top` starts at the root. -/
def below? (top p : Path) : Option Path :=
  if p.startsWith top then
    let rest := dropPieces (top.components.length - 1) p.pieces
    some ⟨Text.glue slash (rest.reverse.dropWhile isIdle).reverse⟩
  else none

/-- The inside of the rest stays as it is written. -/
example : (below? (ofString "/w") (ofString "//w/./a//b/.")).map display = some "a//b" := by
  decide

end Path

end DocLint
