import DocLint.FileSystem.Locate

/-!
Changing what is at a path.

* `FileSystem.bindingPlace` is the location that a path binds: where its
  directory is, and its last name below that.
* `FileSystem.write` binds a path to a node, `FileSystem.delete` takes away what
  is bound.
-/

namespace DocLint.FileSystem

/-- Where a step leads, were a directory made where there is none. -/
def stepMaking (fs : FileSystem) (here : Location) (s : Path.Step) : Location :=
  match fs.follow (fun _ => true) maxLinks here [s], s with
  | .ok loc, _ => loc
  | .error _, .stay => here
  | .error _, .up => here.dropLast
  | .error _, .down n => here ++ [n]

/-- The location of the directory of a path, were it made where it is
missing. -/
def directoryPlace (fs : FileSystem) (d : Path) : Location :=
  d.steps.foldl fs.stepMaking (if d.isAbsolute then [] else fs.workingDirectory)

/-- The location that a path binds. Its last name is not followed. -/
def bindingPlace (fs : FileSystem) (p : Path) : Location :=
  match p.parent?, p.fileName? with
  | some d, some n => fs.directoryPlace d ++ [n]
  | _, _ => []

/-- Where a file at a path is written: a link is followed even if nothing is
there yet. -/
def filePlace (fs : FileSystem) : (links : Nat) → Path → Location
  | 0, p => fs.bindingPlace p
  | links + 1, p =>
    match fs.node? (fs.bindingPlace p) with
    | some (.link target) => fs.filePlace links ((p.parent?.getD p).join target)
    | _ => fs.bindingPlace p

/-- Binds a path to a node. Directories that are missing on the way are made. A
file goes where a link leads, anything else takes the place of a link. -/
def write (fs : FileSystem) (p : Path) (x : Node) : FileSystem :=
  match x with
  | .file _ => fs.put (fs.filePlace maxLinks p) x
  | _ => fs.put (fs.bindingPlace p) x

/-- Takes away what a path is bound to. A link goes itself, not what it leads
to. -/
def delete (fs : FileSystem) (p : Path) : FileSystem :=
  fs.remove (fs.bindingPlace p)

end DocLint.FileSystem
