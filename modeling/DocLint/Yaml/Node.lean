import DocLint.Yaml.Size
import DocLint.Yaml.Token

/-!
YAML nodes.

* `Node` is a scalar, a sequence or a mapping. Aliases are gone: each is the
  node that it names.
* `Reader.node` reads a node from tokens, outside or within brackets, and keeps
  count of its size.
* `Slot` says what a node is to the collection around it.
* `Node.ofTokens` reads the one document of a text, `none` if there is not even
  an empty one. A document ends with its node; what follows it on its own is
  looked at only to tell whether there is a second document.
* `Node.ofText` scans and reads.
-/

namespace DocLint.Yaml

/-- The content of a YAML document. A scalar comes with what its tag says, if it
has one. -/
inductive Node where
  | scalar (style : Style) (tag : Option Tag.Kind) (text : List Char)
  | sequence (items : List Node)
  | mapping (pairs : List (Node × Node))
  deriving Inhabited

namespace Node

/-- The scalar that stands where nothing is written. -/
def nothing : Node := .scalar .plain none []

/-- Whether a node is the key of mappings to be merged in. -/
def isMergeKey : Node → Bool
  | .scalar .plain none text => text == ['<', '<']
  | _ => false

end Node

/-- A node that has a name, and its size. -/
structure NamedNode where
  node : Node
  size : Size

/-- What a tag directive gives: a handle, and what it stands for. -/
abbrev Handle := List Char × List Char

/-- What a node is to the collection around it: an entry, which the node of a
document counts as too, a key or a value. -/
inductive Slot where
  | entry
  | key
  | value
  deriving DecidableEq, Repr

/-- What the next node is. -/
def Slot.next : Slot → Slot
  | entry => entry
  | key => value
  | value => key

/-- The state between two tokens. -/
structure Reader where
  tokens : List Token
  handle : Option Handle
  /-- The names given so far, last one first, with the numbers of their nodes. -/
  names : List (List Char × Nat)
  /-- The nodes with a name by number; one that is still being read is none. -/
  named : Array (Option NamedNode)
  aliases : Nat
  /-- The number of collections that are open. -/
  depth : Nat
  /-- The size of what has been read of the innermost one. -/
  size : Size
  /-- What the next node is to the innermost one. An alias counts as a node of its
  own before the one that it names, so keys and values change places behind it. -/
  slot : Slot
  /-- The number of merge keys so far, by the slots that they are read in. Those of
  a node that an alias names are all counted again. -/
  mergeKeys : Nat

/-- A reading step. -/
abbrev Reading.Step (α : Type) := StateT Reader (Except Fault) α

namespace Reader

/-- The next token. -/
def peek : Reading.Step Token := do
  match (← get).tokens with
  | .fault f :: _ => throw f
  | t :: _ => return t
  | [] => return .endOfText

/-- Goes past a token. -/
def skip : Reading.Step Unit :=
  modify fun r => { r with tokens := r.tokens.tail }

/-- Whether the next token is one of those given. -/
def isNext (ts : List Token) : Reading.Step Bool :=
  return ts.contains (← peek)

/-! ### Sizes -/

/-- Counts more nodes. -/
def count (a : Size) : Reading.Step Unit :=
  modify fun r => { r with size := r.size.beside a }

/-- Goes past the place of a node that brings in so many merge keys. -/
def pass (mergeKeys : Nat) : Reading.Step Unit :=
  modify fun r => { r with slot := r.slot.next, mergeKeys := r.mergeKeys + mergeKeys }

/-- Goes past the place of a scalar. -/
def passScalar (n : Node) : Reading.Step Unit := do
  pass (if (← get).slot = .key ∧ n.isMergeKey then 1 else 0)

/-- Reads a collection, in which the first node is what the slot says; there is a
limit to their nesting. -/
def collect (first : Slot) (read : Reading.Step Node) : Reading.Step Node := do
  pass 0
  let depth := (← get).depth
  let size := (← get).size
  let slot := (← get).slot
  if Size.maxHeight ≤ depth then throw .nesting
  modify fun r => { r with depth := depth + 1, size := .none, slot := first }
  let n ← read
  modify fun r =>
    { r with depth := depth, size := size.beside r.size.collection, slot := slot }
  return n

/-- The node where nothing is written. -/
def nothing : Reading.Step Node := do
  count (.scalar [])
  pass 0
  return .nothing

/-! ### Anchors and tags -/

/-- The meaning of a tag. Two exclamation marks are the handle of the tags that
every document knows, and one is a handle of its own; other handles have to be
given. -/
def tagOf (handle suffix : List Char) : Reading.Step Tag := do
  match (← get).handle with
  | some (h, expansion) => if h = handle then return ⟨expansion, suffix⟩
  | none => pure ()
  if handle = ['!', '!'] then return ⟨Tag.coreHandle, suffix⟩
  if Tag.isClosed handle then throw .tag
  return ⟨handle, suffix⟩

/-- The anchor and the tag before a node, at most one of each. -/
def properties : Reading.Step (Option (List Char) × Option Tag.Kind) := do
  match ← peek with
  | .anchor name =>
    skip
    match ← peek with
    | .tag h s => skip; return (some name, some (← tagOf h s).kind)
    | _ => return (some name, none)
  | .tag h s =>
    skip
    let t ← tagOf h s
    match ← peek with
    | .anchor name => skip; return (some name, some t.kind)
    | _ => return (none, some t.kind)
  | _ => return (none, none)

/-- The node that bears a name, the last one of several. It cannot be one that
the alias stands in. The alias is a node before the one that it names. -/
def referred (name : List Char) : Reading.Step Node := do
  let depth := (← get).depth
  match (← get).names.find? fun a => a.1 == name with
  | none => throw .unknownAlias
  | some (_, id) =>
    match (← get).named[id]? with
    | some (some n) =>
      if Size.maxHeight < depth + n.size.height then throw .nesting
      modify fun r => { r with aliases := r.aliases + 1, size := r.size.beside n.size }
      pass 0
      match n.node with
      | .scalar _ _ _ => passScalar n.node
      | _ => pass n.size.mergeKeys
      return n.node
    | _ => throw .openAlias

/-- Reads a node that bears the name, if there is one. -/
def withName (name : Option (List Char)) (read : Reading.Step Node) : Reading.Step Node := do
  match name with
  | none => read
  | some a =>
    let id := (← get).named.size
    let size := (← get).size
    modify fun r =>
      { r with names := (a, id) :: r.names, named := r.named.push none, size := .none }
    let n ← read
    modify fun r =>
      { r with named := r.named.setIfInBounds id (some ⟨n, r.size⟩), size := size.beside r.size }
    return n

/-- A scalar. One that has a name and is empty counts as plain. -/
def scalar (name : Option (List Char)) (tag : Option Tag.Kind) (style : Style)
    (text : List Char) : Reading.Step Node := do
  count (.scalar text)
  let style := if name.isSome && text.isEmpty && style.isQuoted then .plain else style
  let n := Node.scalar style tag text
  passScalar n
  return n

/-! ### Nodes -/

mutual

/-- Reads a node. Blocks can start only outside of brackets, and a sequence that
is not indented only as the value of a key. -/
def node (inBlock unindented : Bool) : Nat → Reading.Step Node
  | 0 => throw .unexpected
  | fuel + 1 => do
    match ← peek with
    | .reference name => skip; referred name
    | _ =>
      let (name, tag) ← properties
      withName name do
        match ← peek with
        | .scalar style text => skip; scalar name tag style text
        | .marginalScalar => throw .margin
        | .openSequence => skip; collect .entry (return .sequence (← flowItems true [] fuel))
        | .openMapping => skip; collect .key (return .mapping (← flowPairs true [] fuel))
        | t =>
          if t = .blockEntry && unindented then
            collect .entry (return .sequence (← looseItems [] fuel))
          else if t = .blockSequence && inBlock then
            skip; collect .entry (return .sequence (← blockItems [] fuel))
          else if t = .blockMapping && inBlock then
            skip; collect .key (return .mapping (← blockPairs [] fuel))
          else if name.isSome || tag.isSome then scalar name tag .plain []
          else throw .unexpected

/-- Reads the entries of an indented sequence behind those that are read, which
come last one first. -/
def blockItems (items : List Node) : Nat → Reading.Step (List Node)
  | 0 => throw .unexpected
  | fuel + 1 => do
    match ← peek with
    | .blockEnd => skip; return items.reverse
    | .blockEntry =>
      skip
      let n ← if ← isNext [.blockEntry, .blockEnd] then nothing else node true false fuel
      blockItems (n :: items) fuel
    | _ => throw .unexpected

/-- Reads the entries of a sequence that is not indented. -/
def looseItems (items : List Node) : Nat → Reading.Step (List Node)
  | 0 => throw .unexpected
  | fuel + 1 => do
    match ← peek with
    | .blockEntry =>
      skip
      let n ← if ← isNext [.blockEntry, .key, .value, .blockEnd] then nothing
        else node true false fuel
      looseItems (n :: items) fuel
    | _ => return items.reverse

/-- Reads the pairs of a mapping outside of brackets. -/
def blockPairs (pairs : List (Node × Node)) : Nat → Reading.Step (List (Node × Node))
  | 0 => throw .unexpected
  | fuel + 1 => do
    match ← peek with
    | .blockEnd => skip; return pairs.reverse
    | .key =>
      skip
      let k ← if ← isNext [.key, .value, .blockEnd] then nothing else node true true fuel
      if k.isMergeKey then count .mergeKey
      let v ← blockValue fuel
      blockPairs ((k, v) :: pairs) fuel
    | .value =>
      let k ← nothing
      let v ← blockValue fuel
      blockPairs ((k, v) :: pairs) fuel
    | _ => throw .unexpected

/-- Reads the value of a pair outside of brackets. -/
def blockValue : Nat → Reading.Step Node
  | 0 => throw .unexpected
  | fuel + 1 => do
    match ← peek with
    | .value =>
      skip
      if ← isNext [.key, .value, .blockEnd] then nothing else node true true fuel
    | _ => nothing

/-- Reads the entries of a sequence within brackets. -/
def flowItems (isFirst : Bool) (items : List Node) : Nat → Reading.Step (List Node)
  | 0 => throw .unexpected
  | fuel + 1 => do
    if ← isNext [.closeSequence] then
      skip; return items.reverse
    if !isFirst then
      if ← isNext [.comma] then skip else throw .unexpected
      if ← isNext [.closeSequence] then
        skip; return items.reverse
    let n ← match ← peek with
      | .key => skip; collect .key (return .mapping [← lonePair fuel])
      | _ => node false false fuel
    flowItems false (n :: items) fuel

/-- Reads a pair that is an entry of a sequence within brackets. Where a node is
missing behind the sign of its key, the next sign is passed over. -/
def lonePair : Nat → Reading.Step (Node × Node)
  | 0 => throw .unexpected
  | fuel + 1 => do
    let k ← if ← isNext [.value, .comma, .closeSequence] then skip; nothing
      else node false false fuel
    if k.isMergeKey then count .mergeKey
    return (k, ← flowValue fuel)

/-- Reads the pairs of a mapping within brackets. -/
def flowPairs (isFirst : Bool) (pairs : List (Node × Node)) :
    Nat → Reading.Step (List (Node × Node))
  | 0 => throw .unexpected
  | fuel + 1 => do
    if ← isNext [.closeMapping] then
      skip; return pairs.reverse
    if !isFirst then
      if ← isNext [.comma] then skip else throw .unexpected
      if ← isNext [.closeMapping] then
        skip; return pairs.reverse
    let (k, hasValue) ← match ← peek with
      | .key =>
        skip
        let k ← if ← isNext [.value, .comma, .closeMapping] then nothing
          else node false false fuel
        pure (k, true)
      | .value => pure (← nothing, true)
      | _ => pure (← node false false fuel, false)
    if k.isMergeKey then count .mergeKey
    let v ← if hasValue then flowValue fuel else nothing
    flowPairs false ((k, v) :: pairs) fuel

/-- Reads the value of a pair within brackets. -/
def flowValue : Nat → Reading.Step Node
  | 0 => throw .unexpected
  | fuel + 1 => do
    match ← peek with
    | .value =>
      skip
      if ← isNext [.comma, .closeMapping, .closeSequence] then nothing
      else node false false fuel
    | _ => nothing

end

/-! ### Documents -/

/-- Reads directives. At most one names a version, and each of them takes the
place of the ones before it. -/
def directives (hasVersion : Bool) (handle : Option Handle) :
    List Token → Except Fault (Option Handle × List Token)
  | .version :: ts => if hasVersion then .error .directive else directives true none ts
  | .tagHandle h e :: ts => directives hasVersion (some (h, e)) ts
  | .otherDirective :: ts => directives hasVersion none ts
  | ts => .ok (handle, ts)

/-- Whether a token is a directive. -/
def isDirective : Token → Bool
  | .version | .tagHandle _ _ | .otherDirective => true
  | _ => false

/-- Whether a token shows that a document is empty. -/
def endsEmpty (t : Token) : Bool :=
  isDirective t || [Token.documentStart, .documentEnd, .endOfText].contains t

/-- Judges what follows the marked end of a document: nothing that starts another
one. Directives do so only with the marker behind them. -/
def finishMarked : List Token → Except Fault Unit
  | [] | .endOfText :: _ | .fault _ :: _ => .ok ()
  | t :: ts =>
    if isDirective t then
      match directives false none (t :: ts) with
      | .ok (_, .documentStart :: _) => .error .manyDocuments
      | _ => .ok ()
    else .error .manyDocuments

/-- Judges what follows the node of a document. Without a marked end, only a
marked start starts another one, and directives are out of place. -/
def finish : List Token → Except Fault Unit
  | .fault f :: _ => .error f
  | .documentStart :: _ => .error .manyDocuments
  | .documentEnd :: ts => finishMarked (ts.dropWhile (· = .documentEnd))
  | t :: _ => if isDirective t then .error .directive else .ok ()
  | [] => .ok ()

/-- Reads the node of a document from the tokens behind its marker. -/
def content (handle : Option Handle) (isMarked : Bool) (ts : List Token) :
    Except Fault Node := do
  if isMarked && (ts.head?.map endsEmpty).getD true then
    finish ts
    return .nothing
  let (n, r) ← (node true false (3 * ts.length + 3)).run
    ⟨ts, handle, [], #[], 0, 0, .none, .entry, 0⟩
  let size := { r.size with mergeKeys := r.mergeKeys }
  if !size.fits || !aliasesFit r.aliases r.named.size then throw .size
  finish r.tokens
  return n

end Reader

/-- The node of the one document of a text. -/
def Node.ofTokens (ts : List Token) : Except Fault (Option Node) := do
  match ts.dropWhile (· = .documentEnd) with
  | [] | [.endOfText] => return none
  | .fault f :: _ => throw f
  | ts =>
    let (handle, rest) ← Reader.directives false none ts
    match rest with
    | .fault f :: _ => throw f
    | .documentStart :: rest => return some (← Reader.content handle true rest)
    | rest =>
      if rest.length < ts.length then throw .directive
      else return some (← Reader.content handle false rest)

/-- The node of the one document of a text. -/
def Node.ofText (cs : List Char) : Except Fault (Option Node) :=
  Node.ofTokens (Token.ofText cs)

end DocLint.Yaml
