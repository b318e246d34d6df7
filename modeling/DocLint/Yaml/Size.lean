import DocLint.Text.ByteCount

/-!
The size of YAML documents.

* `Size` counts the nodes, the bytes of scalars and the merge keys of some nodes,
  and how deep collections are nested in them. An alias is as large as the node
  that it names.
* `Size.fits` and `aliasesFit` say what is not too large to be read.
-/

namespace DocLint.Yaml

/-- The number of nodes, the number of bytes of the scalars and the number of
merge keys among them, and the greatest number of collections around one, itself
included. -/
structure Size where
  nodes : Nat
  bytes : Nat
  mergeKeys : Nat
  height : Nat
  deriving DecidableEq, Repr

namespace Size

/-- The size of no node. -/
def none : Size := ⟨0, 0, 0, 0⟩

/-- The size of a scalar. -/
def scalar (text : List Char) : Size := ⟨1, Text.byteCount text, 0, 0⟩

/-- What a scalar adds to its size by being a merge key. -/
def mergeKey : Size := ⟨0, 0, 1, 0⟩

/-- The size of nodes beside others. -/
def beside (a b : Size) : Size :=
  ⟨a.nodes + b.nodes, a.bytes + b.bytes, a.mergeKeys + b.mergeKeys, max a.height b.height⟩

/-- The size of a collection of nodes. -/
def collection (a : Size) : Size :=
  ⟨a.nodes + 1, a.bytes, a.mergeKeys, a.height + 1⟩

/-- The greatest number of nodes. -/
def maxNodes : Nat := 250000

/-- The greatest number of bytes of scalars. -/
def maxBytes : Nat := 64 * 1024 * 1024

/-- The greatest number of merge keys. -/
def maxMergeKeys : Nat := 10000

/-- The greatest number of collections around a node, itself included. -/
def maxHeight : Nat := 2000

/-- Whether a document of this size is read. -/
def fits (a : Size) : Bool :=
  decide (a.nodes ≤ maxNodes) && decide (a.bytes ≤ maxBytes) &&
    decide (a.mergeKeys ≤ maxMergeKeys) && decide (a.height ≤ maxHeight)

end Size

/-- The greatest number of anchors, and of aliases. -/
def maxAnchors : Nat := 50000

/-- The number of aliases that is fine with any number of anchors. -/
def freeAliases : Nat := 99

/-- The greatest number of aliases for each anchor when there are more. -/
def maxAliasesPerAnchor : Nat := 10

/-- Whether a document with so many aliases and anchors is read. -/
def aliasesFit (aliases anchors : Nat) : Bool :=
  decide (aliases ≤ maxAnchors) && decide (anchors ≤ maxAnchors) &&
    (decide (aliases ≤ freeAliases) || decide (aliases ≤ maxAliasesPerAnchor * anchors))

end DocLint.Yaml
