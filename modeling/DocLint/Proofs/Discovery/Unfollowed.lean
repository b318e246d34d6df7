/-
What is found where no links are followed.

* `IsWanted`: names that lead from the root through directories alone to a regular
  file that is to be looked at; `IsOutOfReach`: names of a directory that is
  entered and whose path is too long for it to be read.
* `opens_unfollowed`, `exists_opens`: such a walk opens the directories straight
  below the root.
* `exists_reachesFile_iff`: it comes to the wanted files in directories that can be
  read. `Obstacle.unfollowed`: nothing but too long a path is in its way.
* `find_unfollowed`: the files are the wanted ones, each once, and there are no
  errors unless some path is too long.
-/
import Mathlib.Data.List.Induction
import DocLint.Proofs.Discovery.Tower

namespace DocLint.Discovery

/-- Whether names lead from the root to a regular file that is to be looked at. No
directory on the way is reached through a link. -/
structure IsWanted (fs : FileSystem) (root : DocRoot) (c : Config) (selection : Selection)
    (skipArchive : Bool) (ps : List (List Glob.Item)) (t : List FileName) : Prop where
  isFile : ∃ content, fs.node? (root.canonical ++ t) = some (.file content)
  inDirectories : ∀ s, s <+: t → s ≠ t →
    ∃ es, fs.node? (root.canonical ++ s) = some (.directory es)
  depth : t.length ≤ c.maxDepth
  notSkipped : ∀ n ∈ t.dropLast, skippedDirectories.any n.isWritten = false
  notArchived : skipArchive = true → 2 ≤ t.length →
    t.head?.any (·.isWritten c.archiveDir) = false
  selected : t.getLast?.any selection.selects = true
  kept : ∀ n, t.getLast? = some n → isExcluded ps (.ofRelativeNames t) n = false

/-- Whether names lead to a directory that is entered but whose path is too long
for it to be read. -/
structure IsOutOfReach (fs : FileSystem) (root : DocRoot) (c : Config) (skipArchive : Bool)
    (t : List FileName) : Prop where
  isDirectory : ∃ es, fs.node? (root.canonical ++ t) = some (.directory es)
  depth : t.length < c.maxDepth
  notSkipped : ∀ n ∈ t, skippedDirectories.any n.isWritten = false
  notArchived : skipArchive = true → t.head?.any (·.isWritten c.archiveDir) = false
  /-- The directory above can be read. -/
  readable : (root.path.along t.dropLast).isShort = true
  tooLong : (root.path.along t).isShort = false

variable {fs : FileSystem} {root : DocRoot} {c : Config} {selection : Selection}
  {skipArchive : Bool} {ps : List (List Glob.Item)} {s t : List FileName} {n : FileName}
  {x : Node}

/-! ### Directories that are entered -/

/-- Whether a walk goes down through directories of the given names. -/
def IsEntered (c : Config) (skipArchive : Bool) (t : List FileName) : Prop :=
  (∀ n ∈ t, skippedDirectories.any n.isWritten = false) ∧
    (skipArchive = true → t.head?.any (·.isWritten c.archiveDir) = false)

lemma isEntered_nil (c : Config) (skipArchive : Bool) : IsEntered c skipArchive [] :=
  ⟨fun _ h => absurd h List.not_mem_nil, fun _ => rfl⟩

/-- Going down one directory more. Only right below the root may it be the archive
that is left out. -/
lemma isEntered_concat : IsEntered c skipArchive (t ++ [n]) ↔
    IsEntered c skipArchive t ∧ (rules c skipArchive).enters (t.length + 1) n = true := by
  have hskip : (∀ m ∈ t ++ [n], skippedDirectories.any m.isWritten = false) ↔
      (∀ m ∈ t, skippedDirectories.any m.isWritten = false) ∧
        skippedDirectories.any n.isWritten = false := by
    rw [List.forall_mem_append, List.forall_mem_singleton]
  have henters : (rules c skipArchive).enters (t.length + 1) n =
      (!skippedDirectories.any n.isWritten && !(t.length + 1 == 1 &&
        (if skipArchive then some c.archiveDir else none).any n.isWritten)) := rfl
  rw [IsEntered, IsEntered, hskip, henters]
  cases t with
  | nil => cases skipArchive <;> simp
  | cons m t => simp [and_right_comm]

lemma isEntered_dropLast_iff : IsEntered c skipArchive (s ++ [n]).dropLast ↔
    (∀ m ∈ (s ++ [n]).dropLast, skippedDirectories.any m.isWritten = false) ∧
      (skipArchive = true → 2 ≤ (s ++ [n]).length →
        (s ++ [n]).head?.any (·.isWritten c.archiveDir) = false) := by
  rw [IsEntered, List.dropLast_concat]
  cases s <;> simp

/-! ### Paths straight below the root -/

/-- A path straight below the root leads to its place unless it is too long. -/
lemma locate_along (hroot : root.IsResolved fs) (h : fs.node? (root.canonical ++ t) = some x)
    (hx : x.isLink = false) : fs.locate (root.path.along t) =
      if (root.path.along t).isShort then .ok (root.canonical ++ t)
      else .error .nameTooLong := by
  obtain ⟨ns, hns⟩ := hroot.names
  have hlocate := hroot.locate
  rw [hns] at hlocate ⊢
  rw [Path.along_ofNames]
  by_cases ht : t = []
  · subst ht
    have hshort := hlocate
    rw [FileSystem.locate_ofNames] at hshort
    split_ifs at hshort with _ hs
    rw [List.append_nil, List.append_nil, hlocate, if_pos hs]
  · exact FileSystem.locate_append hlocate ht h hx

/-- The same for the place without links. -/
lemma realPlace_along (hroot : root.IsResolved fs) (ht : t ≠ [])
    (h : fs.node? (root.canonical ++ t) = some x) (hx : x.isLink = false) :
    fs.realPlace (root.path.along t) =
      if (FileSystem.pathOf (root.canonical ++ t)).isShort then .ok (root.canonical ++ t)
      else .error .nameTooLong := by
  obtain ⟨ns, hns⟩ := hroot.names
  have hreal := hroot.realPlace
  rw [hns] at hreal ⊢
  rw [Path.along_ofNames]
  exact FileSystem.realPlace_append hreal ht h hx

/-- A path straight below the root that leads anywhere is short. -/
lemma isShort_of_locate (hroot : root.IsResolved fs)
    (h : fs.node? (root.canonical ++ t) = some x) (hx : x.isLink = false)
    (hread : ∃ loc, fs.locate (root.path.along t) = .ok loc) :
    (root.path.along t).isShort = true := by
  obtain ⟨loc, hloc⟩ := hread
  rw [locate_along hroot h hx] at hloc
  split_ifs at hloc with hs
  exact hs

lemma isShort_dropLast (hroot : root.IsResolved fs) (h : (root.path.along t).isShort = true) :
    (root.path.along t.dropLast).isShort = true := by
  obtain ⟨ns, hns⟩ := hroot.names
  obtain ⟨m, hm⟩ := List.dropLast_prefix t
  rw [hns, Path.along_ofNames] at h ⊢
  rw [← hm, ← List.append_assoc] at h
  exact Path.isShort_of_append h

lemma isShort_path (hroot : root.IsResolved fs) : (root.path.along []).isShort = true := by
  obtain ⟨ns, hns⟩ := hroot.names
  have hlocate := hroot.locate
  rw [hns, FileSystem.locate_ofNames] at hlocate
  rw [hns, Path.along_ofNames, List.append_nil]
  split_ifs at hlocate with _ hs
  exact hs

/-! ### Walks that follow no links -/

lemma entryPlace_unfollowed (hfollow : c.followLinks = false) (d : OpenDirectory)
    (n : FileName) : fs.entryPlace c.followLinks root.path d n = .ok (d.place ++ [n]) := by
  rw [FileSystem.entryPlace, hfollow, Bool.false_and, if_neg Bool.false_ne_true]

/-- An open directory is straight below the root. -/
lemma opens_unfollowed (hroot : root.IsResolved fs) (hfollow : c.followLinks = false)
    {d : OpenDirectory} {ds : List OpenDirectory}
    (h : fs.Opens (rules c skipArchive) root.path root.canonical d ds) :
    d.place = root.canonical ++ d.trail ∧ (∃ es, fs.node? d.place = some (.directory es)) ∧
      IsEntered c skipArchive d.trail ∧ (root.path.along d.trail.dropLast).isShort = true := by
  induction h with
  | root =>
      exact ⟨(List.append_nil _).symm, hroot.directory, isEntered_nil c skipArchive,
        isShort_path hroot⟩
  | @enter d ds n sub h hread hsub hdir hloop henter ih =>
      obtain ⟨hplace, ⟨es, hes⟩, hentered, -⟩ := ih
      rw [show (rules c skipArchive).followLinks = c.followLinks from rfl,
        entryPlace_unfollowed hfollow] at hsub
      cases hsub
      refine ⟨?_, hdir, isEntered_concat.mpr ⟨hentered, henter⟩, ?_⟩
      · rw [hplace, List.append_assoc]
      · rw [hplace] at hes
        rw [List.dropLast_concat]
        exact isShort_of_locate hroot hes rfl hread

/-- Every directory straight below the root is opened, if its names may be entered
and the directory above can be read. -/
lemma exists_opens (hroot : root.IsResolved fs) (hfollow : c.followLinks = false)
    (hdir : ∃ es, fs.node? (root.canonical ++ t) = some (.directory es))
    (hentered : IsEntered c skipArchive t)
    (hshort : (root.path.along t.dropLast).isShort = true) :
    ∃ ds, fs.Opens (rules c skipArchive) root.path root.canonical
      ⟨root.canonical ++ t, t⟩ ds := by
  induction t using List.reverseRecOn with
  | nil => exact ⟨[], by rw [List.append_nil]; exact .root⟩
  | append_singleton t n ih =>
      obtain ⟨es, hes⟩ := hdir
      rw [List.dropLast_concat] at hshort
      rw [← List.append_assoc] at hes ⊢
      obtain ⟨es', hes'⟩ := FileSystem.exists_directory_of_node?_concat hes
      obtain ⟨hentered, henter⟩ := isEntered_concat.mp hentered
      obtain ⟨ds, hds⟩ := ih ⟨es', hes'⟩ hentered (isShort_dropLast hroot hshort)
      have hread : fs.locate (root.path.along t) = .ok (root.canonical ++ t) := by
        rw [locate_along hroot hes' rfl, if_pos hshort]
      refine ⟨_, .enter hds ⟨_, hread⟩ (entryPlace_unfollowed hfollow _ n) ⟨es, hes⟩ ?_ henter⟩
      intro hlink
      rw [FileSystem.isLinkAt_eq_false hes rfl] at hlink
      cases hlink

lemma exists_reads_iff (hroot : root.IsResolved fs) (hfollow : c.followLinks = false)
    (hstarts : fs.starts (rules c skipArchive) root.path = true) {d : OpenDirectory} :
    (∃ ds, fs.Reads (rules c skipArchive) root.path root.canonical d ds) ↔
      d.place = root.canonical ++ d.trail ∧ (∃ es, fs.node? d.place = some (.directory es)) ∧
        IsEntered c skipArchive d.trail ∧ (root.path.along d.trail.dropLast).isShort = true ∧
        d.trail.length < c.maxDepth := by
  constructor
  · rintro ⟨ds, h⟩
    obtain ⟨hplace, hdir, hentered, hshort⟩ := opens_unfollowed hroot hfollow h.opens
    exact ⟨hplace, hdir, hentered, hshort, h.depth⟩
  · rintro ⟨hplace, hdir, hentered, hshort, hdepth⟩
    obtain ⟨place, trail⟩ := d
    obtain rfl : place = root.canonical ++ trail := hplace
    obtain ⟨ds, hds⟩ := exists_opens hroot hfollow hdir hentered hshort
    exact ⟨ds, hstarts, hds, hdepth⟩

/-- A file that is reached is a wanted one in a directory that can be read. -/
lemma ReachesFile.isWanted {d : OpenDirectory} {ds : List OpenDirectory} {place : Location}
    (h : ReachesFile fs root c selection skipArchive ps d ds n place)
    (hroot : root.IsResolved fs) (hfollow : c.followLinks = false) :
    IsWanted fs root c selection skipArchive ps (d.trail ++ [n]) ∧
      (root.path.along d.trail).isShort = true := by
  obtain ⟨hplace, ⟨es, hes⟩, hentered, -⟩ := opens_unfollowed hroot hfollow h.reaches.opens
  obtain ⟨content, hx⟩ := h.isFile
  rw [hplace] at hes
  have hleads := h.leads
  rw [entryPlace_unfollowed hfollow, hplace, List.append_assoc] at hleads
  cases hleads
  rw [← @List.dropLast_concat _ d.trail n, isEntered_dropLast_iff] at hentered
  refine ⟨⟨⟨content, hx⟩, fun s => FileSystem.exists_directory_of_prefix hx, ?_, hentered.1,
    hentered.2, ?_, fun m hm => ?_⟩, isShort_of_locate hroot hes rfl h.reaches.readable⟩
  · rw [List.length_append, List.length_singleton]
    exact h.reaches.depth
  · rw [List.getLast?_concat, Option.any_some]
    exact h.selected
  · rw [List.getLast?_concat] at hm
    cases hm
    exact h.kept

/-- A wanted file in a directory that can be read is reached. -/
lemma IsWanted.exists_reachesFile
    (h : IsWanted fs root c selection skipArchive ps (t ++ [n])) (hroot : root.IsResolved fs)
    (hfollow : c.followLinks = false)
    (hstarts : fs.starts (rules c skipArchive) root.path = true)
    (hshort : (root.path.along t).isShort = true) :
    ∃ ds place, ReachesFile fs root c selection skipArchive ps ⟨root.canonical ++ t, t⟩ ds n
      place := by
  obtain ⟨content, hx⟩ := h.isFile
  have hentered := isEntered_dropLast_iff.mpr ⟨h.notSkipped, h.notArchived⟩
  have hdepth := h.depth
  have hselected := h.selected
  rw [List.dropLast_concat] at hentered
  rw [List.length_append, List.length_singleton] at hdepth
  rw [List.getLast?_concat, Option.any_some] at hselected
  rw [← List.append_assoc] at hx
  obtain ⟨es, hes⟩ := FileSystem.exists_directory_of_node?_concat hx
  obtain ⟨ds, hreads⟩ := (exists_reads_iff hroot hfollow hstarts).mpr
    ⟨show (⟨root.canonical ++ t, t⟩ : OpenDirectory).place = _ from rfl, ⟨es, hes⟩, hentered,
      isShort_dropLast hroot hshort, hdepth⟩
  have hread : fs.locate (root.path.along t) = .ok (root.canonical ++ t) := by
    rw [locate_along hroot hes rfl, if_pos hshort]
  refine ⟨ds, _, ⟨hreads, ⟨_, hread⟩, ?_⟩, entryPlace_unfollowed hfollow _ n, ⟨content, hx⟩,
    hselected, h.kept n List.getLast?_concat⟩
  exact FileSystem.mem_names.mpr (Option.isSome_of_mem hx)

/-- The files that are reached are the wanted ones in directories that can be
read. -/
lemma exists_reachesFile_iff (hroot : root.IsResolved fs) (hfollow : c.followLinks = false)
    (hstarts : fs.starts (rules c skipArchive) root.path = true) :
    (∃ d ds n place, ReachesFile fs root c selection skipArchive ps d ds n place ∧
        d.trail ++ [n] = t) ↔
      IsWanted fs root c selection skipArchive ps t ∧
        (root.path.along t.dropLast).isShort = true := by
  constructor
  · rintro ⟨d, ds, n, place, h, rfl⟩
    rw [List.dropLast_concat]
    exact h.isWanted hroot hfollow
  · rintro ⟨h, hshort⟩
    rcases List.eq_nil_or_concat' t with rfl | ⟨t, n, rfl⟩
    · cases h.selected
    · rw [List.dropLast_concat] at hshort
      obtain ⟨ds, place, hreach⟩ := h.exists_reachesFile hroot hfollow hstarts hshort
      exact ⟨_, ds, n, place, hreach, rfl⟩

/-- A wanted file is resolved to its place, unless the path of that is too long. -/
lemma IsWanted.realPlace_eq (h : IsWanted fs root c selection skipArchive ps t)
    (hroot : root.IsResolved fs) : fs.realPlace (root.path.along t) =
      if (FileSystem.pathOf (root.canonical ++ t)).isShort then .ok (root.canonical ++ t)
      else .error .nameTooLong := by
  obtain ⟨content, hx⟩ := h.isFile
  refine realPlace_along hroot (fun ht => ?_) hx rfl
  subst ht
  cases h.selected

/-- What is in the way of a walk that follows no links is the path of a directory
or of a wanted file. -/
lemma Obstacle.unfollowed {m : String} (hobstacle : Obstacle fs root c selection skipArchive ps t m)
    (hroot : root.IsResolved fs) (hfollow : c.followLinks = false)
    (hstarts : fs.starts (rules c skipArchive) root.path = true) :
    (IsOutOfReach fs root c skipArchive t ∧
      m = traversalMessage (.unreachable (root.path.along t) .nameTooLong)) ∨
    (IsWanted fs root c selection skipArchive ps t ∧
      (root.path.along t.dropLast).isShort = true ∧
      (FileSystem.pathOf (root.canonical ++ t)).isShort = false ∧
      m = readMessage .nameTooLong) := by
  cases hobstacle with
  | directory hreads he =>
      obtain ⟨hplace, ⟨es, hes⟩, hentered, hshort, hdepth⟩ :=
        (exists_reads_iff hroot hfollow hstarts).mp ⟨_, hreads⟩
      rw [hplace] at hes
      rw [locate_along hroot hes rfl] at he
      split_ifs at he with hs
      cases he
      exact Or.inl ⟨⟨⟨es, hes⟩, hdepth, hentered.1, hentered.2, hshort,
        Bool.eq_false_iff.mpr hs⟩, rfl⟩
  | link _ hfollow' => cases hfollow.symm.trans hfollow'
  | loop _ hfollow' => cases hfollow.symm.trans hfollow'
  | outside hreach hplace hout =>
      -- A file that no link leads to lies below the root.
      have hwanted := (hreach.isWanted hroot hfollow).1
      rw [hwanted.realPlace_eq hroot] at hplace
      split_ifs at hplace
      cases hplace
      exact absurd (List.prefix_append _ _) hout
  | file hreach he =>
      obtain ⟨hwanted, hshort⟩ := hreach.isWanted hroot hfollow
      rw [hwanted.realPlace_eq hroot] at he
      split_ifs at he with hs
      cases he
      rw [List.dropLast_concat]
      exact Or.inr ⟨hwanted, hshort, Bool.eq_false_iff.mpr hs, rfl⟩

/-- A directory out of reach is in the way. -/
lemma IsOutOfReach.obstacle (h : IsOutOfReach fs root c skipArchive t)
    (hroot : root.IsResolved fs) (hfollow : c.followLinks = false)
    (hstarts : fs.starts (rules c skipArchive) root.path = true) :
    Obstacle fs root c selection skipArchive ps t
      (traversalMessage (.unreachable (root.path.along t) .nameTooLong)) := by
  obtain ⟨es, hes⟩ := h.isDirectory
  have he := locate_along hroot hes rfl
  rw [if_neg (Bool.eq_false_iff.mp h.tooLong)] at he
  obtain ⟨ds, hreads⟩ := (exists_reads_iff hroot hfollow hstarts).mpr
    ⟨show (⟨root.canonical ++ t, t⟩ : OpenDirectory).place = _ from rfl, ⟨es, hes⟩,
      ⟨h.notSkipped, h.notArchived⟩, h.readable, h.depth⟩
  exact .directory hreads he

/-! ### What is found -/

section Found

variable {d : Discovery} (hroot : root.IsResolved fs) (hfollow : c.followLinks = false)
  (hstarts : fs.starts (rules c skipArchive) root.path = true)
  (hps : patterns c.exclude = .ok ps) (h : find fs root c selection skipArchive = .ok d)

include hroot hfollow hstarts hps h

lemma mem_files_unfollowed {f : SourceFile} : f ∈ d.files ↔
    ∃ t, IsWanted fs root c selection skipArchive ps t ∧
      (root.path.along t.dropLast).isShort = true ∧
      (FileSystem.pathOf (root.canonical ++ t)).isShort = true ∧ f = sourceFile root t := by
  rw [mem_files_iff hps h]
  constructor
  · rintro ⟨dir, ds, n, entry, place, hreach, hplace, -, rfl⟩
    obtain ⟨hwanted, hshort⟩ :=
      (exists_reachesFile_iff hroot hfollow hstarts).mp ⟨dir, ds, n, entry, hreach, rfl⟩
    rw [hwanted.realPlace_eq hroot] at hplace
    split_ifs at hplace with hs
    exact ⟨dir.trail ++ [n], hwanted, hshort, hs, rfl⟩
  · rintro ⟨t, hwanted, hshort, hs, rfl⟩
    obtain ⟨dir, ds, n, entry, hreach, rfl⟩ :=
      (exists_reachesFile_iff hroot hfollow hstarts).mpr ⟨hwanted, hshort⟩
    have hplace := hwanted.realPlace_eq hroot
    rw [if_pos hs] at hplace
    exact ⟨dir, ds, n, entry, _, hreach, hplace, List.prefix_append _ _, rfl⟩

lemma mem_errors_unfollowed {x : Path × Violation} : x ∈ d.errors ↔
    (∃ t, IsOutOfReach fs root c skipArchive t ∧ x = (.ofRelativeNames t,
      .unreadable (traversalMessage (.unreachable (root.path.along t) .nameTooLong)))) ∨
    ∃ t, IsWanted fs root c selection skipArchive ps t ∧
      (root.path.along t.dropLast).isShort = true ∧
      (FileSystem.pathOf (root.canonical ++ t)).isShort = false ∧
      x = (.ofRelativeNames t, .unreadable (readMessage .nameTooLong)) := by
  obtain ⟨p, v⟩ := x
  rw [mem_errors_iff hps h]
  constructor
  · rintro ⟨t, m, hobstacle, rfl, rfl⟩
    rcases hobstacle.unfollowed hroot hfollow hstarts with
      ⟨ht, rfl⟩ | ⟨hwanted, hshort, hlong, rfl⟩
    · exact Or.inl ⟨t, ht, rfl⟩
    · exact Or.inr ⟨t, hwanted, hshort, hlong, rfl⟩
  · rintro (⟨t, ht, hx⟩ | ⟨t, hwanted, hshort, hlong, hx⟩)
    · obtain ⟨rfl, rfl⟩ := Prod.mk.inj hx
      exact ⟨t, _, ht.obstacle hroot hfollow hstarts, rfl, rfl⟩
    · obtain ⟨rfl, rfl⟩ := Prod.mk.inj hx
      obtain ⟨dir, ds, n, entry, hreach, rfl⟩ :=
        (exists_reachesFile_iff hroot hfollow hstarts).mpr ⟨hwanted, hshort⟩
      have he := hwanted.realPlace_eq hroot
      rw [if_neg (Bool.eq_false_iff.mp hlong)] at he
      exact ⟨_, _, .file hreach he, rfl, rfl⟩

end Found

/-- Whether nothing below the root has too long a path, as seen from the root and
from the top. -/
def FitsBelow (fs : FileSystem) (root : DocRoot) : Prop :=
  ∀ t x, fs.node? (root.canonical ++ t) = some x →
    (root.path.along t).isShort = true ∧
      (FileSystem.pathOf (root.canonical ++ t)).isShort = true

/-- **Without links, exactly the wanted files are found**, each once. The errors are
the directories and the files whose paths are too long, so there are none where
all paths fit. -/
theorem find_unfollowed {p : Path} (hroot : DocRoot.resolve fs p = .ok root)
    (hname : ∀ n, root.path.fileName? = some n → skippedDirectories.any n.isWritten = false)
    (hfollow : c.followLinks = false) (hps : patterns c.exclude = .ok ps) :
    ∃ d, find fs root c selection skipArchive = .ok d ∧
      (∀ f, f ∈ d.files ↔ ∃ t, IsWanted fs root c selection skipArchive ps t ∧
        (root.path.along t.dropLast).isShort = true ∧
        (FileSystem.pathOf (root.canonical ++ t)).isShort = true ∧ f = sourceFile root t) ∧
      (∀ x, x ∈ d.errors ↔
        (∃ t, IsOutOfReach fs root c skipArchive t ∧ x = (.ofRelativeNames t,
          .unreadable (traversalMessage (.unreachable (root.path.along t) .nameTooLong)))) ∨
        ∃ t, IsWanted fs root c selection skipArchive ps t ∧
          (root.path.along t.dropLast).isShort = true ∧
          (FileSystem.pathOf (root.canonical ++ t)).isShort = false ∧
          x = (.ofRelativeNames t, .unreadable (readMessage .nameTooLong))) ∧
      (d.files.map (·.relative)).Pairwise (fun p q => ¬ p.Same q) ∧
      (d.errors.map (·.1)).Pairwise (fun p q => ¬ p.Same q) ∧
      (FitsBelow fs root → d.errors = [] ∧
        ∀ f, f ∈ d.files ↔
          ∃ t, IsWanted fs root c selection skipArchive ps t ∧ f = sourceFile root t) := by
  have hresolved := DocRoot.resolve_eq_ok hroot
  have hstarts : fs.starts (rules c skipArchive) root.path = true := starts_of_name hname
  obtain ⟨d, h⟩ := exists_find_eq_ok fs root selection skipArchive hps
  have hfiles := fun f => @mem_files_unfollowed fs root c selection skipArchive ps d
    hresolved hfollow hstarts hps h f
  have herrors := fun x => @mem_errors_unfollowed fs root c selection skipArchive ps d
    hresolved hfollow hstarts hps h x
  refine ⟨d, h, hfiles, herrors, pairwise_not_same_files h, pairwise_not_same_errors h, ?_⟩
  intro hfits
  constructor
  · refine List.eq_nil_iff_forall_not_mem.mpr fun x hx => ?_
    rcases (herrors x).mp hx with ⟨t, ht, -⟩ | ⟨t, hwanted, -, hlong, -⟩
    · obtain ⟨es, hes⟩ := ht.isDirectory
      cases (hfits t _ hes).1.symm.trans ht.tooLong
    · obtain ⟨content, hcontent⟩ := hwanted.isFile
      cases (hfits t _ hcontent).2.symm.trans hlong
  · intro f
    rw [hfiles]
    constructor
    · rintro ⟨t, hwanted, -, -, hf⟩
      exact ⟨t, hwanted, hf⟩
    · rintro ⟨t, hwanted, hf⟩
      obtain ⟨content, hcontent⟩ := hwanted.isFile
      obtain ⟨hpath, hplace⟩ := hfits t _ hcontent
      exact ⟨t, hwanted, isShort_dropLast hresolved hpath, hplace, hf⟩

/-- The name `a.md`. -/
def pageName : FileName := ⟨[0x61, 0x2E, 0x6D, 0x64], by decide⟩

/-- A page in a directory of a root, next to a link. -/
def pageTree : FileSystem :=
  ⟨[(.letters 0, .directory [(.letters 1, .directory [(pageName, .file .empty)]),
    (.letters 2, .link ⟨[dot]⟩)])], []⟩

/-- The root of that tree. -/
def pageRoot : DocRoot :=
  ⟨.ofNames [.letters 0], .ofNames [], [.letters 0]⟩

lemma resolve_pageTree : DocRoot.resolve pageTree (.ofNames [.letters 0]) = .ok pageRoot := by
  have hdir : pageTree.node? pageRoot.canonical = some (.directory
      [(.letters 1, .directory [(pageName, .file .empty)]), (.letters 2, .link ⟨[dot]⟩)]) := rfl
  obtain ⟨hlocate, hreal⟩ := FileSystem.locate_ofNames_of_node? hdir rfl (by decide)
  exact DocRoot.resolve_ofNames hlocate hreal hdir

/-- The page is found. -/
theorem find_unfollowed_pageTree : ∃ d,
    DocRoot.resolve pageTree (.ofNames [.letters 0]) = .ok pageRoot ∧
    find pageTree pageRoot {} (.withExtensions [".md"]) true = .ok d ∧
    sourceFile pageRoot [.letters 1, pageName] ∈ d.files := by
  obtain ⟨d, hfind, hfiles, -⟩ := @find_unfollowed pageTree pageRoot {} (.withExtensions [".md"])
    true [] _ resolve_pageTree (by decide) rfl rfl
  refine ⟨d, resolve_pageTree, hfind, (hfiles _).mpr ⟨_, ⟨⟨_, rfl⟩, ?_, by decide, by decide,
    by decide, by decide, by decide⟩, by decide, by decide, rfl⟩⟩
  intro s hs hne
  rcases List.prefix_cons_iff.mp hs with rfl | ⟨u, rfl, hu⟩
  · exact ⟨_, rfl⟩
  rcases List.prefix_cons_iff.mp hu with rfl | ⟨v, rfl, hv⟩
  · exact ⟨_, rfl⟩
  · cases List.prefix_nil.mp hv
    exact absurd rfl hne

/-- A walk that follows no links may meet errors: below fifteen directories with
names of 255 bytes, the path of one more is too long. -/
theorem exists_error_unfollowed : ∃ root d,
    DocRoot.resolve (.tower (.letters 254) 16) (.ofNames (List.replicate 15 (.letters 254))) =
      .ok root ∧
    (∀ n, root.path.fileName? = some n → skippedDirectories.any n.isWritten = false) ∧
    find (.tower (.letters 254) 16) root { followLinks := false } .all false = .ok d ∧
    d.errors ≠ [] := by
  obtain ⟨hroot, hname, d, hfind, herrors⟩ :=
    exists_errors_letters { followLinks := false } .all (by decide) rfl
  exact ⟨_, d, hroot, hname, hfind, herrors⟩

end DocLint.Discovery
