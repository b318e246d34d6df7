import DocLint.Failure
import DocLint.Path.Normal

/-!
The directory to look through.

* `DocRoot` is that directory: its path, absolute and normal; the project, which
  is the directory above it; and its place without links.
* `DocRoot.resolve` finds it. The path is brought into normal form before any
  file is looked at.
* `DocRoot.relative` is a path as seen from the root.
-/

namespace DocLint

/-- The directory to look through. -/
structure DocRoot where
  path : Path
  /-- Where link targets with a leading slash start. -/
  projectRoot : Path
  /-- The place of the directory itself. -/
  canonical : Location
  deriving DecidableEq

namespace DocRoot

/-- The normal form of a path seen from the working directory. -/
def absolute (fs : FileSystem) (p : Path) : Path :=
  ((FileSystem.pathOf fs.workingDirectory).join p).normal

/-- Finds the directory to look through. -/
def resolve (fs : FileSystem) (p : Path) : Except Failure DocRoot :=
  if p.bytes = [] then .error (.rootUnresolvable p .emptyPath)
  else
    let path := absolute fs p
    match fs.locate path with
    | .error _ => .error (.rootNotFound path)
    | .ok place =>
      if fs.isDirectoryAt place then
        match fs.realPlace path with
        | .error e => .error (.rootUnresolvable path e)
        | .ok canonical => .ok ⟨path, path.parent?.getD path, canonical⟩
      else .error (.rootNotADirectory path)

/-- A path as seen from the root; a path elsewhere stays as it is. -/
def relative (r : DocRoot) (p : Path) : Path :=
  (r.path.below? p).getD p

end DocRoot

end DocLint
