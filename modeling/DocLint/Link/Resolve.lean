import DocLint.Link.Target
import DocLint.Path.Normal

/-!
Where a link target may lead.

* `Probe` answers the two questions that are asked of the files: whether there
  is anything at a path, and whether it is a directory.
* `candidates` are the paths that a target may mean, most likely first: the
  path itself and, if that is a directory, the index file in it; a path without
  an extension is tried with each of the usual ones before it is taken as is.
* `resolve` takes the first candidate there is.
-/

namespace DocLint

/-- What a resolver needs to know of the files. -/
structure Probe where
  isThere : Path → Bool
  isDirectory : Path → Bool

namespace Link

/-- The file that stands for a directory. -/
def indexFile : Path := Path.ofString "README.md"

/-- The extensions tried for a path that has none, in order. -/
def guessedExtensions : List (List UInt8) :=
  [".md", ".yaml", ".json"].map fun s => Text.Utf8.encode s.toList

/-- Whether nothing is to be looked for: the target is blank, external, or a
place on the same page. -/
def isRejected (target : List Char) : Bool :=
  (Text.trim target).isEmpty || isAnchor target || isExternal target

/-- The path that a target spells: below the project for a leading slash, else
next to the file that holds the link. -/
def base (sourceDir projectRoot : Path) (target : List Char) : Path :=
  match fileOf (Text.trim target) with
  | '/' :: rest =>
    (projectRoot.join ⟨Text.Utf8.encode (rest.dropWhile (· = '/'))⟩).normal
  | file => (sourceDir.join ⟨Text.Utf8.encode file⟩).normal

/-- A path after the variants of it that have an extension. -/
def variants (p : Path) : List Path :=
  if p.extension?.isNone then guessedExtensions.map p.append ++ [p] else [p]

/-- The first occurrences of the paths in a list. -/
def distinct (ps : List Path) : List Path :=
  ps.foldl (fun kept p => if kept.any (fun q => decide (q.Same p)) then kept else kept ++ [p]) []

/-- The paths that a target may mean, in the order in which they are tried. -/
def candidates (sourceDir projectRoot : Path) (probe : Probe) (target : List Char) : List Path :=
  if isRejected target then []
  else
    let b := base sourceDir projectRoot target
    distinct ((b :: if probe.isDirectory b then [b.join indexFile] else []).flatMap variants)

/-- The candidates of a target, and the first of them that is there. -/
structure Resolution where
  candidates : List Path
  resolved : Option Path
  deriving DecidableEq

namespace Resolution

/-- Whether a target leads to nothing. -/
def isBroken (r : Resolution) : Bool :=
  r.resolved.isNone

/-- The path to name in a report: the one that is there, or the first guess. -/
def reported (r : Resolution) : Option Path :=
  r.resolved.or r.candidates.head?

end Resolution

/-- Resolves a target. -/
def resolve (sourceDir projectRoot : Path) (probe : Probe) (target : List Char) : Resolution :=
  let cs := candidates sourceDir projectRoot probe target
  ⟨cs, cs.find? probe.isThere⟩

end Link

end DocLint
