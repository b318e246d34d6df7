import DocLint.Path.Basic

/-!
File systems as values.

* `Node` is a file with its bytes, a directory, a symbolic link, or a socket,
  which stands for all that is neither a file nor a directory.
* `FileSystem` is a top directory together with the place where relative paths
  start. A `Location` is a place without links on the way: the names from the
  top.
* `FileSystem.node?` looks a location up. Of two bindings of one name in a
  directory the first one counts, and a name that no directory can hold is not
  bound at all, so every value is a file system.
* `FileSystem.names` lists a directory, each name once and in order.
* `FileSystem.put` and `FileSystem.remove` edit at a location.
-/

namespace DocLint

/-- What a name can be bound to. -/
inductive Node where
  | file (content : ByteArray)
  | directory (entries : List (FileName × Node))
  | link (target : Path)
  | socket
  deriving Inhabited

/-- A place in a file system, as the names that lead to it from the top. -/
abbrev Location := List FileName

/-- The greatest number of bytes of a name. -/
def FileSystem.maxNameLength : Nat := 255

/-- Whether a directory can hold a name: it is short enough and has no NUL. -/
def FileName.isStorable (n : FileName) : Bool :=
  decide (n.bytes.length ≤ FileSystem.maxNameLength) && !n.bytes.contains 0

namespace Node

/-- The bindings of a directory; nothing else has any. -/
def entries : Node → List (FileName × Node)
  | directory es => es.filter fun e => e.1.isStorable
  | _ => []

/-- Whether a node is a directory. -/
def isDirectory : Node → Bool
  | directory _ => true
  | _ => false

/-- Whether a node is a symbolic link. -/
def isLink : Node → Bool
  | link _ => true
  | _ => false

/-- What a directory binds a name to. -/
def child? (d : Node) (n : FileName) : Option Node :=
  (d.entries.find? fun e => e.1 = n).map (·.2)

/-- The node that names lead to. -/
def descend? (d : Node) : Location → Option Node
  | [] => some d
  | n :: loc => (d.child? n).bind (·.descend? loc)

/-! ### Editing -/

/-- Binds a name, and takes away what it was bound to before. -/
def bindName (n : FileName) (x : Node) (es : List (FileName × Node)) :
    List (FileName × Node) :=
  (n, x) :: es.filter fun e => e.1 ≠ n

/-- Puts a node at a location. Whatever is no directory on the way gives way to
one. -/
def put (x : Node) : Location → Node → Node
  | [], _ => x
  | n :: loc, d => directory (bindName n (put x loc ((d.child? n).getD (directory []))) d.entries)

/-- Takes the node at a location away, if there is one. -/
def remove : Location → Node → Node
  | [], d => d
  | [n], d => directory (d.entries.filter fun e => e.1 ≠ n)
  | n :: loc, d =>
    match d.child? n with
    | some x => directory (bindName n (remove loc x) d.entries)
    | none => d

end Node

/-! ### Listings -/

/-- Adds a name to a list of names in order, unless it is there. -/
def insertName (n : FileName) : List FileName → List FileName
  | [] => [n]
  | m :: ms => if n < m then n :: m :: ms else if n = m then m :: ms else m :: insertName n ms

/-- The names that entries bind, each once and in order. -/
def sortedNames (es : List (FileName × Node)) : List FileName :=
  es.foldr (fun e ns => insertName e.1 ns) []

/-! ### File systems -/

/-- A top directory, and the place where relative paths start. -/
structure FileSystem where
  top : List (FileName × Node)
  workingDirectory : Location

namespace FileSystem

/-- The node at a location. -/
def node? (fs : FileSystem) (loc : Location) : Option Node :=
  (Node.directory fs.top).descend? loc

/-- The names in the directory at a location. -/
def names (fs : FileSystem) (loc : Location) : List FileName :=
  sortedNames ((fs.node? loc).getD .socket).entries

/-- Whether there is a directory at a location. -/
def isDirectoryAt (fs : FileSystem) (loc : Location) : Bool :=
  ((fs.node? loc).getD .socket).isDirectory

/-- Puts a node at a location below the top. -/
def put (fs : FileSystem) (loc : Location) (x : Node) : FileSystem :=
  { fs with top := (Node.put x loc (.directory fs.top)).entries }

/-- Takes the node at a location away. -/
def remove (fs : FileSystem) (loc : Location) : FileSystem :=
  { fs with top := (Node.remove loc (.directory fs.top)).entries }

end FileSystem

end DocLint
