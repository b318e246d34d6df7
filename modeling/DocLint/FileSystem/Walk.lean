import DocLint.FileSystem.Locate

/-!
Walking through the files below a directory.

* `Visit` is one thing that a walk comes by: an entry of a directory, with the
  names that lead to it from the start, or a link that cannot be followed.
* `FileSystem.classify` says what an entry is. Links count as such unless they
  are followed; a followed link must lead somewhere, and not to a directory
  that is open on the way to it.
* `FileSystem.listing` reads a directory by its path from the start, and
  `FileSystem.visitsBelow` lists what is below it: the names in order
  (`FileSystem.visitsAt`), and behind each directory what is below that one. A
  directory that cannot be read is come by once more, as a failure. The depth
  that is left bounds the walk.
* `FileSystem.visits` is the whole walk, its start included.
-/

namespace DocLint

/-- What an entry is to a walk. -/
inductive EntryKind where
  | file
  | directory (place : Location)
  /-- A link that is not followed, or a socket. -/
  | other
  deriving DecidableEq

/-- The reasons why a link cannot be followed or a directory cannot be read. -/
inductive WalkFault where
  | unreachable (path : Path) (cause : FileSystem.Fault)
  | loop (link ancestor : Path)
  deriving DecidableEq

/-- A reason in words. -/
def WalkFault.message : WalkFault → String
  | unreachable path cause =>
    "IO error for operation on " ++ path.display ++ ": " ++ cause.message
  | loop link ancestor =>
    "File system loop found: " ++ link.display ++ " points to an ancestor " ++ ancestor.display

/-- What a walk comes by; `trail` are the names from the start. -/
inductive Visit where
  | entry (trail : List FileName) (kind : EntryKind)
  | failure (trail : List FileName) (cause : WalkFault)
  deriving DecidableEq

/-- How to walk. -/
structure WalkRules where
  /-- How many directories deep to go. -/
  maxDepth : Nat
  followLinks : Bool
  /-- Whether to enter a directory of a name at a depth. -/
  enters : Nat → FileName → Bool

/-- A directory on the way from the start to an entry. -/
structure OpenDirectory where
  place : Location
  trail : List FileName

/-- The path that names lead to from a start. -/
def Path.along (start : Path) (trail : List FileName) : Path :=
  .ofComponents (start.components ++ trail.map .name)

namespace FileSystem

/-! ### Entries -/

/-- What a followed link is, given the open directories, the nearest one
first. -/
def classifyLink (fs : FileSystem) (start : Path) (trail : List FileName)
    (opened : List OpenDirectory) : Except WalkFault EntryKind :=
  let path := start.along trail
  match fs.locate path with
  | .error e => .error (.unreachable path e)
  | .ok loc =>
    match fs.node? loc with
    | some (.directory _) =>
      match opened.find? fun d => d.place = loc with
      | some d => .error (.loop path (start.along d.trail))
      | none => .ok (.directory loc)
    | some (.file _) => .ok .file
    | _ => .ok .other

/-- What the entry at a location is. -/
def classify (fs : FileSystem) (followLinks : Bool) (start : Path) (place : Location)
    (trail : List FileName) (opened : List OpenDirectory) : Except WalkFault EntryKind :=
  match fs.node? place with
  | some (.directory _) => .ok (.directory place)
  | some (.file _) => .ok .file
  | some (.link _) => if followLinks then fs.classifyLink start trail opened else .ok .other
  | _ => .ok .other

/-! ### Walks -/

/-- The names in an open directory. -/
def listing (fs : FileSystem) (start : Path) (d : OpenDirectory) :
    Except WalkFault (List FileName) :=
  match fs.locate (start.along d.trail) with
  | .error e => .error (.unreachable (start.along d.trail) e)
  | .ok _ => .ok (fs.names d.place)

/-- What a walk comes by at one name of an open directory; `below` are the visits
below a directory that is opened next. -/
def visitsAt (fs : FileSystem) (rules : WalkRules) (start : Path)
    (below : OpenDirectory → List OpenDirectory → List Visit)
    (here : OpenDirectory) (above : List OpenDirectory) (name : FileName) : List Visit :=
  let trail := here.trail ++ [name]
  match fs.classify rules.followLinks start (here.place ++ [name]) trail (here :: above) with
  | .error cause => [.failure trail cause]
  | .ok (.directory place) =>
    if rules.enters trail.length name then
      .entry trail (.directory place) :: below ⟨place, trail⟩ (here :: above)
    else []
  | .ok kind => [.entry trail kind]

/-- What a walk comes by below a directory, with `depth` levels left. The
directory is the first of the open ones. -/
def visitsBelow (fs : FileSystem) (rules : WalkRules) (start : Path) :
    (depth : Nat) → OpenDirectory → List OpenDirectory → List Visit
  | 0, _, _ => []
  | depth + 1, here, above =>
    match fs.listing start here with
    | .error cause => [.failure here.trail cause]
    | .ok names =>
      names.flatMap (fs.visitsAt rules start (fs.visitsBelow rules start depth) here above)

/-- Whether the last name of a path is bound to a link. -/
def isLink (fs : FileSystem) (p : Path) : Bool :=
  match p.parent?, p.fileName? with
  | some d, some n =>
    match fs.lookup? d with
    | some node => ((node.child? n).map Node.isLink).getD false
    | none => false
  | _, _ => false

/-- The walk from a directory at the given place. The start is an entry too,
and if it is refused like any other directory there is nothing to come by; but
a start that is a link is walked through even where links are not followed. -/
def visits (fs : FileSystem) (rules : WalkRules) (start : Path) (place : Location) : List Visit :=
  let below := fs.visitsBelow rules start rules.maxDepth ⟨place, []⟩ []
  if !rules.followLinks && fs.isLink start then .entry [] .other :: below
  else if start.fileName?.all (rules.enters 0) then .entry [] (.directory place) :: below
  else []

end FileSystem

end DocLint
