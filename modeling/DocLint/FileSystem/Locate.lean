import DocLint.FileSystem.Basic

/-!
Where paths lead.

* `Path.steps` reads a path as the system does, one step at a time; a step that
  stays where it is still wants a directory.
* `FileSystem.locate` follows a path through directories and symbolic links to
  a location, or says why there is none. No more than `maxLinks` links are
  followed on one path, and it has at most `maxPathLength` bytes.
* `FileSystem.realPlace` finds the same location by looking at the places on the
  way one after another. It is the paths of these places that must not be longer
  than `maxPathLength`, not the path that is asked for.
* `FileSystem.isThere` and `FileSystem.isDirectory` ask what is at a path.
* `FileSystem.read` gives the bytes of the file at a path, `readText` its text.
-/

namespace DocLint

/-- The reasons why a file operation fails. -/
inductive FileSystem.Fault where
  | notFound
  | noDevice
  | notADirectory
  | isADirectory
  | nameTooLong
  | tooManyLinks
  | emptyPath
  | nulByte
  | notUtf8
  deriving DecidableEq, Repr

/-- A reason in words. -/
def FileSystem.Fault.message : FileSystem.Fault → String
  | notFound => "No such file or directory (os error 2)"
  | noDevice => "No such device or address (os error 6)"
  | notADirectory => "Not a directory (os error 20)"
  | isADirectory => "Is a directory (os error 21)"
  | nameTooLong => "File name too long (os error 36)"
  | tooManyLinks => "Too many levels of symbolic links (os error 40)"
  | emptyPath => "cannot make an empty path absolute"
  | nulByte => "file name contained an unexpected NUL byte"
  | notUtf8 => "stream did not contain valid UTF-8"

/-- What a stretch of a path between slashes asks for. -/
inductive Path.Step where
  | stay
  | up
  | down (n : FileName)
  deriving DecidableEq

/-- The step that a stretch between slashes stands for. -/
def Path.Step.ofPiece (p : List UInt8) : Path.Step :=
  match Component.ofPiece? p with
  | some (.name n) => .down n
  | some .parent => .up
  | _ => .stay

/-- The steps of a path. -/
def Path.steps (p : Path) : List Path.Step :=
  p.pieces.map Path.Step.ofPiece

/-- The greatest number of bytes of a path. -/
def FileSystem.maxPathLength : Nat := 4095

/-- Whether a path is short enough to be followed. -/
def Path.isShort (p : Path) : Bool :=
  decide (p.bytes.length ≤ FileSystem.maxPathLength)

namespace FileSystem

/-- The greatest number of links that are followed on one path. -/
def maxLinks : Nat := 40

/-- The path of a location. -/
def pathOf (loc : Location) : Path :=
  Path.ofNames loc

/-! ### Following steps -/

/-- Takes steps from a location, through as many links as `links` says. The
steps of a link come before the ones that are left; those of an absolute link
start at the top. No name is looked up at a place that does not fit. -/
def follow (fs : FileSystem) (fits : Location → Bool) (links : Nat) (here : Location) :
    List Path.Step → Except Fault Location
  | [] => .ok here
  | s :: rest =>
    match fs.node? here with
    | some (.directory es) =>
      match s with
      | .stay => fs.follow fits links here rest
      | .up => fs.follow fits links here.dropLast rest
      | .down n =>
        if maxNameLength < n.bytes.length || !fits (here ++ [n]) then .error .nameTooLong
        else
          match (Node.directory es).child? n with
          | none => .error .notFound
          | some (.link target) =>
            match links with
            | 0 => .error .tooManyLinks
            | k + 1 =>
              fs.follow fits k (if target.isAbsolute then [] else here) (target.steps ++ rest)
          | some _ => fs.follow fits links (here ++ [n]) rest
    | some _ => .error .notADirectory
    | none => .error .notFound
termination_by s => (links, s.length)

/-- Where the steps of a path lead. -/
def followPath (fs : FileSystem) (fits : Location → Bool) (p : Path) : Except Fault Location :=
  fs.follow fits maxLinks (if p.isAbsolute then [] else fs.workingDirectory) p.steps

/-- The location that a path leads to. -/
def locate (fs : FileSystem) (p : Path) : Except Fault Location :=
  if p.bytes.contains 0 then .error .nulByte
  else if p.bytes = [] then .error .notFound
  else if p.isShort then fs.followPath (fun _ => true) p
  else .error .nameTooLong

/-- The location that a path leads to, found place by place. -/
def realPlace (fs : FileSystem) (p : Path) : Except Fault Location :=
  if p.bytes.contains 0 then .error .nulByte
  else if p.bytes = [] then .error .notFound
  else fs.followPath (fun loc => (pathOf loc).isShort) p

/-- The node that a path leads to. -/
def lookup? (fs : FileSystem) (p : Path) : Option Node :=
  match fs.locate p with
  | .ok loc => fs.node? loc
  | .error _ => none

/-- Whether a path leads to anything. -/
def isThere (fs : FileSystem) (p : Path) : Bool :=
  (fs.lookup? p).isSome

/-- Whether a path leads to a directory. -/
def isDirectory (fs : FileSystem) (p : Path) : Bool :=
  ((fs.lookup? p).map Node.isDirectory).getD false

/-! ### Reading -/

/-- The bytes of the file at a path. -/
def read (fs : FileSystem) (p : Path) : Except Fault ByteArray :=
  match fs.locate p with
  | .error e => .error e
  | .ok loc =>
    match fs.node? loc with
    | some (.file content) => .ok content
    | some (.directory _) => .error .isADirectory
    | some .socket => .error .noDevice
    | _ => .error .notFound

/-- The text of the file at a path. -/
def readText (fs : FileSystem) (p : Path) : Except Fault String :=
  match fs.read p with
  | .error e => .error e
  | .ok content =>
    match String.fromUTF8? content with
    | some s => .ok s
    | none => .error .notUtf8

end FileSystem

end DocLint
