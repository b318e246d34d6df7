import DocLint.Path.Basic

/-!
The lexical normal form of a path.

* `Path.collapse` adds one component to a path that is already normal: a
  single dot adds nothing, and two dots take the name before them away. At the
  root two dots lead nowhere; at the front of a relative path they stay.
* `Path.normal` is the path that results, a single dot if nothing is left.

No file is looked at, so a name that is a symbolic link is taken away like any
other.
-/

namespace DocLint.Path

/-- Adds a component at the end of a normal path, given last component first. -/
def collapse : List Component → Component → List Component
  | out, .current => out
  | .name _ :: out, .parent => out
  | .root :: out, .parent => .root :: out
  | out, c => c :: out

/-- The components that are left when no file is looked at. -/
def normalComponents (p : Path) : List Component :=
  (p.components.foldl collapse []).reverse

/-- The normal form of a path. -/
def normal (p : Path) : Path :=
  match p.normalComponents with
  | [] => ⟨[dot]⟩
  | cs => ofComponents cs

/-- Two dots stay only at the front of a relative path. -/
example :
    (["/a/../../b//.", "a/../..", "./a/.", ""].map fun s => (ofString s).normal.display) =
    ["/b", "..", "a", "."] := by decide

end DocLint.Path
