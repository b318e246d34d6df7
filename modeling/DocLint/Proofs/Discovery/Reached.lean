/-
What is found, told by what a walk reaches.

* `FileSystem.Reads`, `FileSystem.Reaches`: the directories that a walk is to
  read, and the names that it comes to in those that can be read.
* `ReachesFile`: an entry that is a regular file once links are followed, that is
  selected and that no pattern leaves out.
* `mem_files_iff`: the files are the ones reached that lie below the root once
  links are resolved.
* `Obstacle`, `mem_errors_iff`: the five ways for something to be in the way, and
  that the errors are these.
* `locate_of_opens`, `realPlace_entry`: the one reason for an open directory not to
  be read, or for a file that is reached not to be resolved, is that a path is too
  long.
-/
import DocLint.Proofs.Discovery.Found
import DocLint.Proofs.Discovery.Root

namespace DocLint

namespace FileSystem

/-- A directory that a walk is to read, with those above it. -/
structure Reads (fs : FileSystem) (rules : WalkRules) (start : Path) (place : Location)
    (d : OpenDirectory) (ds : List OpenDirectory) : Prop where
  starts : fs.starts rules start = true
  opens : Opens fs rules start place d ds
  depth : d.trail.length < rules.maxDepth

/-- A name that a walk comes to, in a directory that can be read. -/
structure Reaches (fs : FileSystem) (rules : WalkRules) (start : Path) (place : Location)
    (d : OpenDirectory) (ds : List OpenDirectory) (n : FileName) : Prop
    extends Reads fs rules start place d ds where
  readable : ∃ loc, fs.locate (start.along d.trail) = .ok loc
  listed : n ∈ fs.names d.place

end FileSystem

namespace Discovery

/-- The file that names lead to. -/
def sourceFile (root : DocRoot) (trail : List FileName) : SourceFile :=
  ⟨root.path.along trail, .ofRelativeNames trail⟩

/-- A file that a walk comes to and that is to be looked at: `place` is where its
entry leads. -/
structure ReachesFile (fs : FileSystem) (root : DocRoot) (c : Config) (selection : Selection)
    (skipArchive : Bool) (ps : List (List Glob.Item)) (d : OpenDirectory)
    (ds : List OpenDirectory) (n : FileName) (place : Location) : Prop where
  reaches : fs.Reaches (rules c skipArchive) root.path root.canonical d ds n
  leads : fs.entryPlace c.followLinks root.path d n = .ok place
  isFile : ∃ content, fs.node? place = some (.file content)
  selected : selection.selects n = true
  kept : isExcluded ps (.ofRelativeNames (d.trail ++ [n])) n = false

/-- What is in the way of a walk or of a file, and at which names: a directory
that cannot be read, a link that cannot be resolved or that leads to a directory
above it, a file that lies outside the root, and a file that cannot be
resolved. -/
inductive Obstacle (fs : FileSystem) (root : DocRoot) (c : Config) (selection : Selection)
    (skipArchive : Bool) (ps : List (List Glob.Item)) : List FileName → String → Prop
  | directory {d : OpenDirectory} {ds : List OpenDirectory} {e : FileSystem.Fault}
      (h : fs.Reads (rules c skipArchive) root.path root.canonical d ds)
      (he : fs.locate (root.path.along d.trail) = .error e) :
      Obstacle fs root c selection skipArchive ps d.trail
        (traversalMessage (.unreachable (root.path.along d.trail) e))
  | link {d : OpenDirectory} {ds : List OpenDirectory} {n : FileName} {e : FileSystem.Fault}
      (h : fs.Reaches (rules c skipArchive) root.path root.canonical d ds n)
      (hfollow : c.followLinks = true) (hlink : fs.isLinkAt (d.place ++ [n]) = true)
      (he : fs.locate (root.path.along (d.trail ++ [n])) = .error e) :
      Obstacle fs root c selection skipArchive ps (d.trail ++ [n])
        (traversalMessage (.unreachable (root.path.along (d.trail ++ [n])) e))
  | loop {d a : OpenDirectory} {ds : List OpenDirectory} {n : FileName} {place : Location}
      (h : fs.Reaches (rules c skipArchive) root.path root.canonical d ds n)
      (hfollow : c.followLinks = true) (hlink : fs.isLinkAt (d.place ++ [n]) = true)
      (hplace : fs.locate (root.path.along (d.trail ++ [n])) = .ok place)
      (hdir : ∃ es, fs.node? place = some (.directory es))
      (hopen : ((d :: ds).find? fun a => a.place = place) = some a) :
      Obstacle fs root c selection skipArchive ps (d.trail ++ [n])
        (traversalMessage (.loop (root.path.along (d.trail ++ [n])) (root.path.along a.trail)))
  | outside {d : OpenDirectory} {ds : List OpenDirectory} {n : FileName}
      {entry place : Location}
      (h : ReachesFile fs root c selection skipArchive ps d ds n entry)
      (hplace : fs.realPlace (root.path.along (d.trail ++ [n])) = .ok place)
      (hout : ¬ root.canonical <+: place) :
      Obstacle fs root c selection skipArchive ps (d.trail ++ [n]) (outsideMessage place)
  | file {d : OpenDirectory} {ds : List OpenDirectory} {n : FileName} {entry : Location}
      {e : FileSystem.Fault}
      (h : ReachesFile fs root c selection skipArchive ps d ds n entry)
      (he : fs.realPlace (root.path.along (d.trail ++ [n])) = .error e) :
      Obstacle fs root c selection skipArchive ps (d.trail ++ [n]) (readMessage e)

variable {fs : FileSystem} {root : DocRoot} {c : Config} {selection : Selection}
  {skipArchive : Bool} {ps : List (List Glob.Item)} {d : Discovery} {f : SourceFile}
  {p : Path} {v : Violation} {visit : Visit}

/-- A root of any other name than those of skipped directories is entered. -/
lemma starts_of_name (h : ∀ n, root.path.fileName? = some n →
    skippedDirectories.any n.isWritten = false) :
    fs.starts (rules c skipArchive) root.path = true := by
  rw [FileSystem.starts, Bool.or_eq_true, Option.all_eq_true]
  refine Or.inr fun n hn => ?_
  show enters _ 0 n = true
  rw [enters, h n hn]
  rfl

/-! ### Judging files -/

lemma judgeFile_eq_file_iff {g : SourceFile} : judgeFile fs root f = .file g ↔
    g = f ∧ ∃ place, fs.realPlace f.path = .ok place ∧ root.canonical <+: place := by
  rw [judgeFile]
  cases fs.realPlace f.path with
  | error e => simp
  | ok place =>
      dsimp only
      split_ifs with h
      · simp [List.isPrefixOf_iff_prefix.mp h, eq_comm]
      · simp [mt List.isPrefixOf_iff_prefix.mpr h]

lemma judgeFile_eq_error_iff : judgeFile fs root f = .error p v ↔ p = f.relative ∧
    ((∃ place, fs.realPlace f.path = .ok place ∧ ¬ root.canonical <+: place ∧
      v = .unreadable (outsideMessage place)) ∨
    ∃ e, fs.realPlace f.path = .error e ∧ v = .unreadable (readMessage e)) := by
  rw [judgeFile]
  cases fs.realPlace f.path with
  | error e => simp [eq_comm]
  | ok place =>
      dsimp only
      split_ifs with h
      · simp [List.isPrefixOf_iff_prefix.mp h]
      · simp [mt List.isPrefixOf_iff_prefix.mpr h, eq_comm]

/-- A file that a walk comes by is judged if it is to be looked at. -/
lemma judge_file (trail : List FileName) (n : FileName) :
    judge fs root selection ps (.entry (trail ++ [n]) .file) =
      if selection.selects n && !isExcluded ps (.ofRelativeNames (trail ++ [n])) n then
        judgeFile fs root (sourceFile root (trail ++ [n]))
      else .nothing := by
  simp only [judge, List.getLast?_append, List.getLast?_singleton, Option.some_or]
  rfl

/-- There is a verdict on failures and on the files to be looked at. -/
lemma judge_eq_iff {w : Verdict} (hw : w ≠ .nothing) : judge fs root selection ps visit = w ↔
    (∃ trail cause, visit = .failure trail cause ∧
      w = .error (.ofRelativeNames trail) (.unreadable (traversalMessage cause))) ∨
    ∃ trail n, visit = .entry (trail ++ [n]) .file ∧ selection.selects n = true ∧
      isExcluded ps (.ofRelativeNames (trail ++ [n])) n = false ∧
      judgeFile fs root (sourceFile root (trail ++ [n])) = w := by
  constructor
  · intro h
    cases visit with
    | failure trail cause => exact Or.inl ⟨trail, cause, rfl, h.symm⟩
    | entry trail kind =>
        cases kind with
        | file =>
            rcases List.eq_nil_or_concat' trail with rfl | ⟨trail, n, rfl⟩
            · exact absurd h.symm hw
            · rw [judge_file] at h
              split_ifs at h with hwanted
              · rw [Bool.and_eq_true, Bool.not_eq_true'] at hwanted
                exact Or.inr ⟨trail, n, rfl, hwanted.1, hwanted.2, h⟩
              · exact absurd h.symm hw
        | _ => exact absurd h.symm hw
  · rintro (⟨trail, cause, rfl, rfl⟩ | ⟨trail, n, rfl, hsel, hkept, h⟩)
    · rfl
    · rw [judge_file, hsel, hkept]
      exact h

/-! ### Files and errors -/

/-- A walk comes by the files that it reaches, among others. -/
lemma comesBy_file_iff {trail : List FileName} {n : FileName} :
    (fs.starts (rules c skipArchive) root.path = true ∧
      FileSystem.ComesBy fs (rules c skipArchive) root.path root.canonical
        (.entry (trail ++ [n]) .file) ∧ selection.selects n = true ∧
      isExcluded ps (.ofRelativeNames (trail ++ [n])) n = false) ↔
    ∃ d ds place, ReachesFile fs root c selection skipArchive ps d ds n place ∧
      d.trail = trail := by
  constructor
  · rintro ⟨hstarts, hcomes, hsel, hkept⟩
    generalize hv : Visit.entry (trail ++ [n]) .file = v at hcomes
    cases hcomes with
    | @entry d ds m kind h hdepth hread hn hc henter =>
        obtain ⟨htrail, rfl⟩ := Visit.entry.inj hv
        obtain ⟨rfl, hnm⟩ := List.append_inj' htrail rfl
        cases hnm
        obtain ⟨place, content, hplace, hx⟩ := FileSystem.classify_eq_file_iff.mp hc
        exact ⟨d, ds, place,
          ⟨⟨⟨hstarts, h, hdepth⟩, hread, hn⟩, hplace, ⟨content, hx⟩, hsel, hkept⟩, rfl⟩
    | _ => cases hv
  · rintro ⟨d, ds, place, h, rfl⟩
    obtain ⟨content, hx⟩ := h.isFile
    have hc : fs.classify (rules c skipArchive).followLinks root.path (d.place ++ [n])
        (d.trail ++ [n]) (d :: ds) = .ok .file := FileSystem.classify_of_file h.leads hx
    exact ⟨h.reaches.starts, .entry h.reaches.opens h.reaches.depth h.reaches.readable
      h.reaches.listed hc (fun _ hk => (nomatch hk)), h.selected, h.kept⟩

/-- **The files** are the ones that the walk reaches and that lie below the root
once links are resolved. -/
lemma mem_files_iff (hps : patterns c.exclude = .ok ps)
    (h : find fs root c selection skipArchive = .ok d) : f ∈ d.files ↔
      ∃ dir ds n entry place, ReachesFile fs root c selection skipArchive ps dir ds n entry ∧
        fs.realPlace (root.path.along (dir.trail ++ [n])) = .ok place ∧
        root.canonical <+: place ∧ f = sourceFile root (dir.trail ++ [n]) := by
  obtain ⟨ps', hps', rfl⟩ := find_eq_ok_iff.mp h
  cases hps.symm.trans hps'
  have hne : Verdict.file f ≠ .nothing := fun h => (nomatch h)
  rw [mem_files_ofVerdicts, mem_verdicts_iff hne]
  constructor
  · rintro ⟨hstarts, visit, hcomes, hjudge⟩
    rcases (judge_eq_iff hne).mp hjudge with ⟨_, _, _, h⟩ | ⟨trail, n, rfl, hsel, hkept, hfile⟩
    · cases h
    obtain ⟨dir, ds, entry, hreach, rfl⟩ := comesBy_file_iff.mp ⟨hstarts, hcomes, hsel, hkept⟩
    obtain ⟨rfl, place, hplace, hbelow⟩ := judgeFile_eq_file_iff.mp hfile
    exact ⟨dir, ds, n, entry, place, hreach, hplace, hbelow, rfl⟩
  · rintro ⟨dir, ds, n, entry, place, hreach, hplace, hbelow, rfl⟩
    obtain ⟨hstarts, hcomes, hsel, hkept⟩ := comesBy_file_iff.mpr ⟨dir, ds, entry, hreach, rfl⟩
    exact ⟨hstarts, _, hcomes, (judge_eq_iff hne).mpr (Or.inr ⟨_, n, rfl, hsel, hkept,
      judgeFile_eq_file_iff.mpr ⟨rfl, place, hplace, hbelow⟩⟩)⟩

/-- A verdict that is an error is about something in the way. -/
lemma exists_obstacle (hstarts : fs.starts (rules c skipArchive) root.path = true)
    (hcomes : FileSystem.ComesBy fs (rules c skipArchive) root.path root.canonical visit)
    (hjudge : judge fs root selection ps visit = .error p v) :
    ∃ t m, Obstacle fs root c selection skipArchive ps t m ∧ p = .ofRelativeNames t ∧
      v = .unreadable m := by
  have hne : Verdict.error p v ≠ .nothing := fun h => (nomatch h)
  rcases (judge_eq_iff hne).mp hjudge with
    ⟨trail, cause, rfl, herror⟩ | ⟨trail, n, rfl, hsel, hkept, herror⟩
  · obtain ⟨rfl, rfl⟩ := Verdict.error.inj herror
    generalize hvisit : Visit.failure trail cause = visit at hcomes
    cases hcomes with
    | unreadable h hdepth hread =>
        cases hvisit
        exact ⟨_, _, .directory ⟨hstarts, h, hdepth⟩ hread, rfl, rfl⟩
    | failure h hdepth hread hn hc =>
        cases hvisit
        have hreach : fs.Reaches (rules c skipArchive) root.path root.canonical _ _ _ :=
          ⟨⟨hstarts, h, hdepth⟩, hread, hn⟩
        obtain ⟨hfollow, hlink, ⟨e, he, rfl⟩ | ⟨place, es, a, hplace, hes, ha, rfl⟩⟩ :=
          FileSystem.classify_eq_error_iff.mp hc
        · exact ⟨_, _, .link hreach hfollow hlink he, rfl, rfl⟩
        · exact ⟨_, _, .loop hreach hfollow hlink hplace ⟨es, hes⟩ ha, rfl, rfl⟩
    | entry h hdepth hread hn hc henter => cases hvisit
  · obtain ⟨dir, ds, entry, hreach, rfl⟩ := comesBy_file_iff.mp ⟨hstarts, hcomes, hsel, hkept⟩
    obtain ⟨rfl, ⟨place, hplace, hout, rfl⟩ | ⟨e, he, rfl⟩⟩ := judgeFile_eq_error_iff.mp herror
    · exact ⟨_, _, .outside hreach hplace hout, rfl, rfl⟩
    · exact ⟨_, _, .file hreach he, rfl, rfl⟩

/-- A file that is reached and not resolved to a place below the root is an error. -/
lemma ReachesFile.exists_visit {dir : OpenDirectory} {ds : List OpenDirectory} {n : FileName}
    {entry : Location} (h : ReachesFile fs root c selection skipArchive ps dir ds n entry)
    (hfile : judgeFile fs root (sourceFile root (dir.trail ++ [n])) = .error p v) :
    fs.starts (rules c skipArchive) root.path = true ∧
      ∃ visit, FileSystem.ComesBy fs (rules c skipArchive) root.path root.canonical visit ∧
        judge fs root selection ps visit = .error p v := by
  obtain ⟨hstarts, hcomes, hsel, hkept⟩ := comesBy_file_iff.mpr ⟨dir, ds, entry, h, rfl⟩
  refine ⟨hstarts, _, hcomes, ?_⟩
  rw [judge_file, hsel, hkept]
  exact hfile

/-- What is in the way is something that the walk comes by. -/
lemma Obstacle.exists_visit {t : List FileName} {m : String}
    (h : Obstacle fs root c selection skipArchive ps t m) :
    fs.starts (rules c skipArchive) root.path = true ∧
      ∃ visit, FileSystem.ComesBy fs (rules c skipArchive) root.path root.canonical visit ∧
        judge fs root selection ps visit = .error (.ofRelativeNames t) (.unreadable m) := by
  cases h with
  | directory h he =>
      exact ⟨h.starts, _, .unreadable h.opens h.depth he, rfl⟩
  | link h hfollow hlink he =>
      refine ⟨h.starts, _, .failure h.opens h.depth h.readable h.listed ?_, rfl⟩
      exact FileSystem.classify_eq_error_iff.mpr ⟨hfollow, hlink, Or.inl ⟨_, he, rfl⟩⟩
  | loop h hfollow hlink hplace hdir hopen =>
      obtain ⟨es, hes⟩ := hdir
      refine ⟨h.starts, _, .failure h.opens h.depth h.readable h.listed ?_, rfl⟩
      exact FileSystem.classify_eq_error_iff.mpr
        ⟨hfollow, hlink, Or.inr ⟨_, es, _, hplace, hes, hopen, rfl⟩⟩
  | outside h hplace hout =>
      exact h.exists_visit (judgeFile_eq_error_iff.mpr ⟨rfl, Or.inl ⟨_, hplace, hout, rfl⟩⟩)
  | file h he => exact h.exists_visit (judgeFile_eq_error_iff.mpr ⟨rfl, Or.inr ⟨_, he, rfl⟩⟩)

/-- **The errors** are what is in the way. -/
lemma mem_errors_iff (hps : patterns c.exclude = .ok ps)
    (h : find fs root c selection skipArchive = .ok d) : (p, v) ∈ d.errors ↔
      ∃ t m, Obstacle fs root c selection skipArchive ps t m ∧ p = .ofRelativeNames t ∧
        v = .unreadable m := by
  obtain ⟨ps', hps', rfl⟩ := find_eq_ok_iff.mp h
  cases hps.symm.trans hps'
  have hne : Verdict.error p v ≠ .nothing := fun h => (nomatch h)
  rw [mem_errors_ofVerdicts, mem_verdicts_iff hne]
  constructor
  · rintro ⟨hstarts, visit, hcomes, hjudge⟩
    exact exists_obstacle hstarts hcomes hjudge
  · rintro ⟨t, m, hobstacle, rfl, rfl⟩
    exact hobstacle.exists_visit

/-! ### Paths that are too long -/

/-- A listed name has no zero byte, and neither has the path in front of it if that
leads anywhere. -/
lemma contains_zero_along {dir : OpenDirectory} {n : FileName} (hroot : root.IsResolved fs)
    (hread : ∃ loc, fs.locate (root.path.along dir.trail) = .ok loc)
    (hn : n ∈ fs.names dir.place) :
    (root.path.along (dir.trail ++ [n])).bytes.contains 0 = false := by
  obtain ⟨ns, hns⟩ := hroot.names
  obtain ⟨loc, hloc⟩ := hread
  obtain ⟨x, hx⟩ := Option.isSome_iff_exists.mp (FileSystem.mem_names.mp hn)
  rw [hns, Path.along_ofNames] at hloc ⊢
  rw [FileSystem.locate_ofNames] at hloc
  split_ifs at hloc with hz
  rw [← List.append_assoc]
  exact FileSystem.contains_zero_ofNames_append (Bool.eq_false_iff.mpr hz) hx

/-- The path of an open directory leads to its place unless it is too long. -/
lemma locate_of_opens {dir : OpenDirectory} {ds : List OpenDirectory}
    (hroot : root.IsResolved fs)
    (h : fs.Opens (rules c skipArchive) root.path root.canonical dir ds) :
    fs.locate (root.path.along dir.trail) =
      if (root.path.along dir.trail).isShort then .ok dir.place else .error .nameTooLong := by
  obtain ⟨ns, hns⟩ := hroot.names
  have hstart := FileSystem.followPath_of_locate hroot.locate
  have hzero : (root.path.along dir.trail).bytes.contains 0 = false := by
    cases h with
    | root =>
        have hlocate := hroot.locate
        rw [hns, FileSystem.locate_ofNames] at hlocate
        split_ifs at hlocate with hz
        rw [hns, Path.along_ofNames, List.append_nil]
        exact Bool.eq_false_iff.mpr hz
    | enter h hread hsub hdir hloop henter =>
        exact contains_zero_along hroot hread (FileSystem.mem_names_of_entryPlace hsub hdir)
  rw [hns] at hstart h hzero ⊢
  have hfollow := h.followPath_eq hstart
  rw [Path.along_ofNames] at hfollow hzero ⊢
  rw [FileSystem.locate_ofNames, hzero, if_neg Bool.false_ne_true, hfollow]

/-- An entry that leads somewhere is resolved to just that place, unless a place on
the way has too long a path. -/
lemma realPlace_entry {dir : OpenDirectory} {ds : List OpenDirectory} {n : FileName}
    {loc : Location} {x : Node} (hroot : root.IsResolved fs)
    (h : fs.Reaches (rules c skipArchive) root.path root.canonical dir ds n)
    (hloc : fs.entryPlace c.followLinks root.path dir n = .ok loc) (hx : fs.node? loc = some x)
    (hlink : x.isLink = false) :
    fs.realPlace (root.path.along (dir.trail ++ [n])) = .ok loc ∨
      fs.realPlace (root.path.along (dir.trail ++ [n])) = .error .nameTooLong := by
  obtain ⟨ns, hns⟩ := hroot.names
  have hstart := FileSystem.followPath_of_locate hroot.locate
  have hzero := contains_zero_along hroot h.readable h.listed
  have hopens := h.opens
  rw [hns] at hstart hopens hloc hzero ⊢
  have hfollow := hopens.followPath_entry hstart hloc hx hlink
  rw [Path.along_ofNames] at hzero hfollow ⊢
  rw [FileSystem.realPlace_ofNames, hzero, if_neg Bool.false_ne_true]
  exact FileSystem.follow_eq_or hfollow

end Discovery

end DocLint
