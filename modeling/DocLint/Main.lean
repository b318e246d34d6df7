import DocLint.CommandLine.Outcome
import DocLint.FileSystem.Edit

/-!
The program.

* `Snapshot.ofArguments` reads the part of the real files that a command line asks about
  into a `FileSystem`: the working directory, the project, and the
  configuration file. Only files that are going to be read have their content
  taken along.
* `main` prints the outcome of its arguments and returns the exit code.

A link is read as the place where it ends. One that leads out of the snapshot
leads nowhere.

A `FileSystem` has no permissions. What cannot be read is there all the same, so
links that lead to it are not broken, but it is empty in the snapshot. Where a run
would look at it there is no outcome: the program tells what it could not read,
and ends as after any other failure.
-/

namespace DocLint

/-- A part of the real files. -/
structure Snapshot where
  files : FileSystem
  /-- The places of the directories that were taken along as a whole. -/
  taken : List Location := []
  /-- The places below them that could not be read. -/
  unread : List Location := []

namespace Snapshot

/-- How many directories deep a snapshot goes. -/
def maxDepth : Nat := 4096

/-- Where a link leads that leads nowhere. -/
def nowhere : Path := Path.ofString "/nowhere"

/-- The end of the link at a place. -/
def linkTarget (e : IO.FS.DirEntry) : IO Path := do
  try
    return Path.ofString (← IO.FS.realPath e.path).toString
  catch _ => return nowhere

/-- Looking through real files, with the places that could not be read so far. -/
abbrev Survey := StateT (List Location) IO

/-- What is read, or what stands for it if the place cannot be read. -/
def readOr {α : Type} (place : Location) (missing : α) (read : IO α) : Survey α := do
  match ← read.toBaseIO with
  | .ok x => return x
  | .error _ =>
    modify (place :: ·)
    return missing

/-- The bindings that entries stand for. -/
def bindings (read : FileName → IO.FS.DirEntry → Survey Node) (entries : Array IO.FS.DirEntry) :
    Survey (List (FileName × Node)) :=
  entries.toList.filterMapM fun e => do
    match FileName.ofString? e.fileName with
    | some n => return some (n, ← read n e)
    | none => return none

/-- The node of the entry of a name in the directory at a place; `wanted` are the names of the
files to be read. -/
def readNode (wanted : FileName → Bool) : Nat → Location → FileName → IO.FS.DirEntry → Survey Node
  | 0, here, name, _ => do
    modify ((here ++ [name]) :: ·)
    return .directory []
  | depth + 1, here, name, e => do
    let place := here ++ [name]
    match ← readOr place .other ((·.type) <$> e.path.symlinkMetadata) with
    | .dir =>
      let entries ← readOr place #[] e.path.readDir
      return .directory (← bindings (readNode wanted depth place) entries)
    | .file =>
      return .file (← if wanted name then readOr place .empty (IO.FS.readBinFile e.path)
        else pure .empty)
    | .symlink => return .link (← linkTarget e)
    | .other => return .socket

/-- Takes along the directory at a path, under the name that it has without
links. -/
def addDirectory (wanted : FileName → Bool) (s : Snapshot) (p : Path) : IO Snapshot := do
  let .ok real ← (IO.FS.realPath p.display).toBaseIO | return s
  let place := (Path.ofString real.toString).names
  if s.taken.any (·.isPrefixOf place) || !(← real.isDir) then return s
  let read : Survey (List (FileName × Node)) := do
    bindings (readNode wanted maxDepth place) (← readOr place #[] real.readDir)
  let (nodes, unread) ← read.run s.unread
  return ⟨s.files.put place (.directory nodes), place :: s.taken, unread⟩

/-- Takes along the file at a path, under the name that it is called by. -/
def addFile (fs : FileSystem) (p : Path) : IO FileSystem := do
  let .ok real ← (IO.FS.realPath p.display).toBaseIO | return fs
  if ← real.isDir then return fs.write p (.directory [])
  return fs.write p (.file (← IO.FS.readBinFile p.display))

/-- Whether a run may look at a place that could not be read. Where links are followed it may come
by any place. -/
def isLookedAt (s : Snapshot) (c : Config) (place : Location) : Bool :=
  match DocRoot.resolve s.files c.root with
  | .error _ => false
  | .ok root =>
    let names := place.drop root.canonical.length
    let directories := if s.files.isDirectoryAt place then names else names.dropLast
    c.followLinks || (root.canonical.isPrefixOf place &&
      !directories.any fun n => skippedDirectories.any n.isWritten)

/-- The part of the real files that an invocation asks about, unless a run would look at something
that cannot be read. -/
def ofInvocation (fs : FileSystem) (i : Invocation) : IO FileSystem := do
  let withConfig ← i.config.toList.foldlM addFile fs
  match i.config? withConfig with
  | .error _ => return withConfig
  | .ok c =>
    let root := DocRoot.absolute fs c.root
    let places := [root.parent?.getD root, root, FileSystem.pathOf fs.workingDirectory]
    let wanted (n : FileName) := i.command != .check .filenames &&
      (Selection.withExtensions c.extensions).selects n
    let s ← places.foldlM (addDirectory wanted) { files := withConfig }
    if let some place := s.unread.find? (isLookedAt s c) then
      throw (IO.userError ("cannot read " ++ (FileSystem.pathOf place).display))
    i.config.toList.foldlM addFile s.files

/-- The part of the real files that a command line asks about. -/
def ofArguments (args : List String) : IO FileSystem := do
  let here := (Path.ofString (← IO.currentDir).toString).names
  let fs := FileSystem.put ⟨[], here⟩ here (.directory [])
  match Arguments.parse args with
  | .ok (.run i) => ofInvocation fs i
  | _ => return fs

end Snapshot

/-- Whether a switch of the environment is set to anything but zero. -/
def isSwitchedOn (name : String) : IO Bool := do
  return (← IO.getEnv name).any (· != "0")

/-- Whether to use colors: if they are forced, or else on a terminal unless they
are unwanted. -/
def wantsColor : IO Bool := do
  if ← isSwitchedOn "CLICOLOR_FORCE" then return true
  if (← IO.getEnv "NO_COLOR").isSome then return false
  if (← IO.getEnv "CLICOLOR") == some "0" then return false
  (← IO.getStdout).isTty

end DocLint

open DocLint in
/-- Prints what the arguments lead to. -/
def main (args : List String) : IO UInt32 := do
  let color ← wantsColor
  match ← (Snapshot.ofArguments args).toBaseIO with
  | .error e =>
    IO.eprintln (inColor color red "ERROR:" ++ " " ++ toString e)
    return 2
  | .ok files =>
    let o := Outcome.of color files args
    IO.print o.output
    match o.trouble with
    | some (.usage fault) => IO.eprintln ("error: " ++ fault.message)
    | some (.fatal failure) => IO.eprintln (failure.errorLine color)
    | none => pure ()
    return o.exitCode.toUInt32
