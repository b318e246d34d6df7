/-
The options of a walk as filters of one walk.

* `passes`: what the options say about a file, read off its path alone.
* `isBehindLink`: whether a name in the path of a file is that of a symbolic link.
* `FileSystem.opens_iff_of_step`: where single steps of two walks differ by what names
  tell, so do the directories that they open; `opens_iff_isEntered` for the archive,
  `opens_unfollowed_iff` for links.
* `files_eq_filter`: where the files that two walks reach differ by what their
  paths tell, the files of the one are a filter of those of the other.
* `find_eq_filter`: a walk with any options filters one walk without any, and a
  walk that follows no links filters one that follows them.
-/
import Mathlib.Data.List.Infix
import DocLint.Proofs.Discovery.Unfollowed
import DocLint.Proofs.FileSystem.Shape

namespace DocLint

/-- If the steps down of one walk are those of another that keep a condition on the names
so far, it opens the directories of the other walk whose names fulfil the condition. -/
lemma FileSystem.opens_iff_of_step {fs : FileSystem} {rules rules' : WalkRules} {start : Path}
    {place : Location} {P : List FileName → Prop} (hnil : P [])
    (hstep : ∀ {d : OpenDirectory} {ds : List OpenDirectory} {n : FileName} {sub : Location},
      fs.Opens rules' start place d ds →
      (∃ loc, fs.locate (start.along d.trail) = .ok loc) →
      (∃ es, fs.node? sub = some (.directory es)) →
      ((P d.trail ∧ fs.entryPlace rules.followLinks start d n = .ok sub ∧
          rules.enters (d.trail.length + 1) n = true) ↔
        (P (d.trail ++ [n]) ∧ fs.entryPlace rules'.followLinks start d n = .ok sub ∧
          rules'.enters (d.trail.length + 1) n = true)))
    {d : OpenDirectory} {ds : List OpenDirectory} :
    fs.Opens rules start place d ds ↔ fs.Opens rules' start place d ds ∧ P d.trail := by
  -- By induction on both sides the directories above are the same, so what a link that
  -- leads back is held against is the same too.
  constructor
  · intro h
    induction h with
    | root => exact ⟨.root, hnil⟩
    | enter h hread hsub hdir hloop henter ih =>
        obtain ⟨hP, hsub', henter'⟩ := (hstep ih.1 hread hdir).mp ⟨ih.2, hsub, henter⟩
        exact ⟨.enter ih.1 hread hsub' hdir hloop henter', hP⟩
  · rintro ⟨h, hP⟩
    induction h with
    | root => exact .root
    | enter h hread hsub hdir hloop henter ih =>
        obtain ⟨habove, hsub', henter'⟩ := (hstep h hread hdir).mpr ⟨hP, hsub, henter⟩
        exact .enter (ih habove) hread hsub' hdir hloop henter'

namespace Discovery

/-- Whether the options leave a file in, by its path: it is not too deep, not in the
archive that is left out, of a selected name, and no pattern matches it. -/
def passes (c : Config) (selection : Selection) (skipArchive : Bool)
    (ps : List (List Glob.Item)) (f : SourceFile) : Bool :=
  let t := f.relative.names
  decide (t.length ≤ c.maxDepth) &&
    !(skipArchive && decide (2 ≤ t.length) && t.head?.any (·.isWritten c.archiveDir)) &&
    t.getLast?.any fun n => selection.selects n && !isExcluded ps f.relative n

/-- Whether one of the names in the path of a file, below the root, is that of a
symbolic link. The root may be one. -/
def isBehindLink (fs : FileSystem) (root : DocRoot) (f : SourceFile) : Bool :=
  f.relative.names.inits.any fun s => !s.isEmpty && fs.isLink (root.path.along s)

/-- Whether names lead on from the root without a symbolic link. -/
def IsDirect (fs : FileSystem) (root : DocRoot) (t : List FileName) : Prop :=
  ∀ s, s <+: t → s ≠ [] → fs.isLink (root.path.along s) = false

variable {fs : FileSystem} {root : DocRoot} {c c' : Config} {selection selection' : Selection}
  {skipArchive skipArchive' : Bool} {ps ps' : List (List Glob.Item)} {d : OpenDirectory}
  {ds : List OpenDirectory} {n : FileName} {place : Location} {t : List FileName}

/-! ### What paths tell -/

lemma passes_sourceFile_iff :
    passes c selection skipArchive ps (sourceFile root (t ++ [n])) = true ↔
      t.length < c.maxDepth ∧
      (skipArchive = true → 2 ≤ (t ++ [n]).length →
        (t ++ [n]).head?.any (·.isWritten c.archiveDir) = false) ∧
      selection.selects n = true ∧
      isExcluded ps (.ofRelativeNames (t ++ [n])) n = false := by
  have harchive : ∀ a b x : Bool,
      (!(a && b && x)) = true ↔ (a = true → b = true → x = false) := by decide
  rw [passes, sourceFile]
  simp only [Path.names_ofRelativeNames, List.getLast?_concat, Option.any_some, Bool.and_eq_true,
    Bool.not_eq_true', decide_eq_true_eq, harchive, and_assoc]
  rw [List.length_append, List.length_singleton, Nat.succ_le_iff]

lemma isBehindLink_sourceFile_iff :
    isBehindLink fs root (sourceFile root t) = false ↔ IsDirect fs root t := by
  rw [isBehindLink, sourceFile, Path.names_ofRelativeNames, List.any_eq_false]
  simp [IsDirect, List.mem_inits]

lemma isDirect_nil (fs : FileSystem) (root : DocRoot) : IsDirect fs root [] :=
  fun _ hs hne => absurd (List.prefix_nil.mp hs) hne

lemma isDirect_concat : IsDirect fs root (t ++ [n]) ↔
    IsDirect fs root t ∧ fs.isLink (root.path.along (t ++ [n])) = false := by
  constructor
  · intro h
    exact ⟨fun s hs => h s (hs.trans (List.prefix_append t [n])),
      h _ List.prefix_rfl (List.append_ne_nil_of_right_ne_nil t (List.cons_ne_nil n []))⟩
  · rintro ⟨h, hn⟩ s hs hne
    rcases List.prefix_concat_iff.mp hs with rfl | hs
    · exact hn
    · exact h s hs hne

/-! ### Directories left out by name -/

lemma enters_of_enters {k : Nat} (h : (rules c skipArchive).enters k n = true) :
    (rules c' false).enters k n = true := by
  have hskip : (!skippedDirectories.any n.isWritten) = true := (Bool.and_eq_true_iff.mp h).1
  show enters none k n = true
  rw [enters, hskip, Option.any_none, Bool.and_false]
  rfl

/-- What is opened where the archive is left out is what is opened without that,
apart from what is in the archive. How deep to go does not matter. -/
lemma opens_iff_isEntered (hfollow : c'.followLinks = c.followLinks) :
    fs.Opens (rules c skipArchive) root.path root.canonical d ds ↔
      fs.Opens (rules c' false) root.path root.canonical d ds ∧
        IsEntered c skipArchive d.trail := by
  refine FileSystem.opens_iff_of_step (isEntered_nil c skipArchive) fun {d ds n sub} _ _ _ => ?_
  rw [isEntered_concat, show (rules c skipArchive).followLinks = (rules c' false).followLinks from
    hfollow.symm]
  constructor
  · rintro ⟨hentered, hsub, henter⟩
    exact ⟨⟨hentered, henter⟩, hsub, enters_of_enters henter⟩
  · rintro ⟨⟨hentered, henter⟩, hsub, -⟩
    exact ⟨hentered, hsub, henter⟩

/-- A file is reached with options if it is reached without them and they leave it
in. -/
lemma reachesFile_iff_passes
    (hname : ∀ n, root.path.fileName? = some n → skippedDirectories.any n.isWritten = false)
    (hfollow : c'.followLinks = c.followLinks) (hdepth : c.maxDepth ≤ c'.maxDepth) :
    ReachesFile fs root c selection skipArchive ps d ds n place ↔
      ReachesFile fs root c' .all false [] d ds n place ∧
        passes c selection skipArchive ps (sourceFile root (d.trail ++ [n])) = true := by
  rw [passes_sourceFile_iff]
  constructor
  · intro h
    obtain ⟨hopens, hentered⟩ := (opens_iff_isEntered hfollow).mp h.reaches.opens
    have hreads : fs.Reads (rules c' false) root.path root.canonical d ds :=
      ⟨starts_of_name hname, hopens, Nat.lt_of_lt_of_le h.reaches.depth hdepth⟩
    have hleads := h.leads
    rw [← hfollow] at hleads
    rw [← @List.dropLast_concat _ d.trail n, isEntered_dropLast_iff] at hentered
    exact ⟨⟨⟨hreads, h.reaches.readable, h.reaches.listed⟩, hleads, h.isFile, rfl, rfl⟩,
      h.reaches.depth, hentered.2, h.selected, h.kept⟩
  · rintro ⟨h, hless, harchive, hselected, hkept⟩
    -- The names of the walk without options are not skipped either.
    have hskipped := ((opens_iff_isEntered rfl).mp h.reaches.opens).2.1
    have hentered : IsEntered c skipArchive d.trail := by
      rw [← @List.dropLast_concat _ d.trail n, isEntered_dropLast_iff, List.dropLast_concat]
      exact ⟨hskipped, harchive⟩
    have hreads : fs.Reads (rules c skipArchive) root.path root.canonical d ds :=
      ⟨starts_of_name hname, (opens_iff_isEntered hfollow).mpr ⟨h.reaches.opens, hentered⟩, hless⟩
    have hleads := h.leads
    rw [hfollow] at hleads
    exact ⟨⟨hreads, h.reaches.readable, h.reaches.listed⟩, hleads, h.isFile, hselected, hkept⟩

/-! ### Links left out -/

/-- Whether an entry of a directory that can be read is a link is a question about
its place. -/
lemma isLink_along_concat (hroot : root.IsResolved fs)
    (h : fs.Opens (rules c skipArchive) root.path root.canonical d ds)
    (hread : ∃ loc, fs.locate (root.path.along d.trail) = .ok loc) (n : FileName) :
    fs.isLink (root.path.along (d.trail ++ [n])) = fs.isLinkAt (d.place ++ [n]) := by
  have hlocate : fs.locate (root.path.along d.trail) = .ok d.place := by
    obtain ⟨loc, hloc⟩ := hread
    rw [locate_of_opens hroot h] at hloc ⊢
    split_ifs at hloc with hshort
    rw [if_pos hshort]
  obtain ⟨ns, hns⟩ := hroot.names
  rw [hns, Path.along_ofNames] at hlocate
  rw [hns, Path.along_ofNames, ← List.append_assoc,
    FileSystem.isLink_eq fs (Path.parent?_ofNames_concat _ n) (Path.fileName?_ofNames_concat _ n),
    hlocate, FileSystem.isLinkAt]
  dsimp only
  cases fs.node? (d.place ++ [n]) <;> rfl

/-- What is no link is where it leads if links are not followed; if they are, that
is so unless a link leads there. -/
lemma entryPlace_false_iff {start : Path} {x : Node} (hx : fs.node? place = some x)
    (hlink : x.isLink = false) : fs.entryPlace false start d n = .ok place ↔
      fs.entryPlace true start d n = .ok place ∧ fs.isLinkAt (d.place ++ [n]) = false := by
  rw [FileSystem.entryPlace, FileSystem.entryPlace, Bool.false_and, Bool.true_and,
    if_neg Bool.false_ne_true]
  constructor
  · intro h
    cases h
    have hentry := FileSystem.isLinkAt_eq_false hx hlink
    rw [hentry, if_neg Bool.false_ne_true]
    exact ⟨rfl, rfl⟩
  · rintro ⟨h, hentry⟩
    rwa [hentry, if_neg Bool.false_ne_true] at h

/-- What is opened where links are not followed is what is opened without a link on
the way where they are. -/
lemma opens_unfollowed_iff (hroot : root.IsResolved fs) :
    fs.Opens (rules { c with followLinks := false } skipArchive) root.path root.canonical d ds ↔
      fs.Opens (rules { c with followLinks := true } skipArchive) root.path root.canonical d ds ∧
        IsDirect fs root d.trail := by
  refine FileSystem.opens_iff_of_step (isDirect_nil fs root)
    fun {d ds n sub} hopens hread hdir => ?_
  obtain ⟨es, hes⟩ := hdir
  rw [isDirect_concat, isLink_along_concat hroot hopens hread n]
  constructor
  · rintro ⟨hdirect, hsub, henter⟩
    obtain ⟨hsub', hlink⟩ := (entryPlace_false_iff hes rfl).mp hsub
    exact ⟨⟨hdirect, hlink⟩, hsub', henter⟩
  · rintro ⟨⟨hdirect, hlink⟩, hsub, henter⟩
    exact ⟨hdirect, (entryPlace_false_iff hes rfl).mpr ⟨hsub, hlink⟩, henter⟩

/-- A file is reached where links are not followed if it is reached where they are
and is not behind one. -/
lemma reachesFile_unfollowed_iff (hroot : root.IsResolved fs)
    (hname : ∀ n, root.path.fileName? = some n → skippedDirectories.any n.isWritten = false) :
    ReachesFile fs root { c with followLinks := false } selection skipArchive ps d ds n place ↔
      ReachesFile fs root { c with followLinks := true } selection skipArchive ps d ds n place ∧
        (!isBehindLink fs root (sourceFile root (d.trail ++ [n]))) = true := by
  rw [Bool.not_eq_true', isBehindLink_sourceFile_iff, isDirect_concat]
  constructor
  · intro h
    obtain ⟨hopens, hdirect⟩ := (opens_unfollowed_iff hroot).mp h.reaches.opens
    obtain ⟨content, hx⟩ := h.isFile
    obtain ⟨hleads, hlink⟩ := (entryPlace_false_iff hx rfl).mp h.leads
    rw [← isLink_along_concat hroot hopens h.reaches.readable n] at hlink
    have hreads : fs.Reads (rules { c with followLinks := true } skipArchive) root.path
        root.canonical d ds := ⟨starts_of_name hname, hopens, h.reaches.depth⟩
    exact ⟨⟨⟨hreads, h.reaches.readable, h.reaches.listed⟩, hleads, ⟨content, hx⟩, h.selected,
      h.kept⟩, hdirect, hlink⟩
  · rintro ⟨h, hdirect, hlink⟩
    obtain ⟨content, hx⟩ := h.isFile
    rw [isLink_along_concat hroot h.reaches.opens h.reaches.readable n] at hlink
    have hleads := (entryPlace_false_iff hx rfl).mpr ⟨h.leads, hlink⟩
    have hreads : fs.Reads (rules { c with followLinks := false } skipArchive) root.path
        root.canonical d ds :=
      ⟨starts_of_name hname, (opens_unfollowed_iff hroot).mpr ⟨h.reaches.opens, hdirect⟩,
        h.reaches.depth⟩
    exact ⟨⟨hreads, h.reaches.readable, h.reaches.listed⟩, hleads, ⟨content, hx⟩, h.selected,
      h.kept⟩

/-! ### Filters of a walk -/

/-- Where two walks reach the same files but for what their paths tell, the files of
the one are a filter of those of the other. -/
lemma files_eq_filter {found found' : Discovery} {q : SourceFile → Bool}
    (h : find fs root c selection skipArchive = .ok found)
    (h' : find fs root c' selection' skipArchive' = .ok found')
    (hps : patterns c.exclude = .ok ps) (hps' : patterns c'.exclude = .ok ps')
    (hq : ∀ d ds n place, ReachesFile fs root c selection skipArchive ps d ds n place ↔
      ReachesFile fs root c' selection' skipArchive' ps' d ds n place ∧
        q (sourceFile root (d.trail ++ [n])) = true) :
    found.files = found'.files.filter q := by
  refine @eq_of_pairwise_of_mem_iff _ (fun f g : SourceFile => f.relative.key < g.relative.key)
    (fun f => List.lt_irrefl f.relative.key) (fun f g k hfg hgk => List.lt_trans hfg hgk) _ _
    (pairwise_files h) ((pairwise_files h').filter q) fun f => ?_
  rw [List.mem_filter, mem_files_iff hps h, mem_files_iff hps' h']
  constructor
  · rintro ⟨d, ds, n, entry, place, hreach, hplace, hbelow, rfl⟩
    obtain ⟨hreach', hpass⟩ := (hq d ds n entry).mp hreach
    exact ⟨⟨d, ds, n, entry, place, hreach', hplace, hbelow, rfl⟩, hpass⟩
  · rintro ⟨⟨d, ds, n, entry, place, hreach, hplace, hbelow, rfl⟩, hpass⟩
    exact ⟨d, ds, n, entry, place, (hq d ds n entry).mpr ⟨hreach, hpass⟩, hplace, hbelow, rfl⟩

/-- **The options are filters of one walk.** Below a root of a name that is entered,
one walk without patterns, with the archive and with all files finds whatever any
walk finds that does not go deeper: with any patterns, selection and archive to
leave out, the files are those of the one walk that pass, in the same order. And a
walk that follows no links finds those of the walk that follows them that are not
behind a link. -/
theorem find_eq_filter {p : Path} (hroot : DocRoot.resolve fs p = .ok root)
    (hname : ∀ n, root.path.fileName? = some n →
      skippedDirectories.any n.isWritten = false) :
    (∀ (c : Config) (m : Nat), ∃ full,
      find fs root { c with exclude := [], maxDepth := m } .all false = .ok full ∧
      ∀ (c' : Config) (selection : Selection) (skipArchive : Bool),
        c'.followLinks = c.followLinks → c'.maxDepth ≤ m →
        (find fs root c' selection skipArchive).map (·.files) =
          (patterns c'.exclude).map fun ps =>
            full.files.filter (passes c' selection skipArchive ps)) ∧
    ∀ (c : Config) (selection : Selection) (skipArchive : Bool),
      (find fs root { c with followLinks := false } selection skipArchive).map (·.files) =
        (find fs root { c with followLinks := true } selection skipArchive).map
          fun found => found.files.filter fun f => !isBehindLink fs root f := by
  constructor
  · intro c m
    obtain ⟨full, hfull⟩ := @exists_find_eq_ok { c with exclude := [], maxDepth := m } [] fs root
      .all false rfl
    refine ⟨full, hfull, fun c' selection skipArchive hfollow hdepth => ?_⟩
    cases hps : patterns c'.exclude with
    | error e => rw [find, hps]; rfl
    | ok ps =>
        obtain ⟨found, hfound⟩ := exists_find_eq_ok fs root selection skipArchive hps
        rw [hfound]
        refine congrArg Except.ok (files_eq_filter hfound hfull hps rfl fun d ds n place => ?_)
        exact reachesFile_iff_passes hname hfollow.symm hdepth
  · intro c selection skipArchive
    cases hps : patterns c.exclude with
    | error e => rw [find, find, hps]; rfl
    | ok ps =>
        obtain ⟨found, hfound⟩ := @exists_find_eq_ok { c with followLinks := false } ps fs root
          selection skipArchive hps
        obtain ⟨found', hfound'⟩ := @exists_find_eq_ok { c with followLinks := true } ps fs root
          selection skipArchive hps
        rw [hfound, hfound']
        refine congrArg Except.ok (files_eq_filter hfound hfound' hps hps fun d ds n place => ?_)
        exact reachesFile_unfollowed_iff (DocRoot.resolve_eq_ok hroot) hname

lemma isWanted_page : IsWanted pageTree pageRoot { exclude := [], maxDepth := 64 } .all false []
    [.letters 1, pageName] where
  isFile := ⟨_, rfl⟩
  inDirectories _ := FileSystem.exists_directory_of_prefix (x := .file .empty) rfl
  depth := by decide
  notSkipped := by decide
  notArchived h := nomatch h
  selected := rfl
  kept _ _ := rfl

/-- The walk to the bottom finds the page, and one that goes one directory deep is a
filter of it that leaves out the page. -/
theorem find_eq_filter_pageTree : ∃ full shallow,
    DocRoot.resolve pageTree (.ofNames [.letters 0]) = .ok pageRoot ∧
    find pageTree pageRoot { exclude := [], maxDepth := 64 } .all false = .ok full ∧
    find pageTree pageRoot { maxDepth := 1 } .all true = .ok shallow ∧
    shallow.files = full.files.filter (passes { maxDepth := 1 } .all true []) ∧
    sourceFile pageRoot [.letters 1, pageName] ∈ full.files ∧
    sourceFile pageRoot [.letters 1, pageName] ∉ shallow.files ∧
    (find pageTree pageRoot { followLinks := false } .all true).map (·.files) =
      (find pageTree pageRoot { followLinks := true } .all true).map
        fun found => found.files.filter fun f => !isBehindLink pageTree pageRoot f := by
  obtain ⟨hoptions, hlinks⟩ := find_eq_filter resolve_pageTree (by decide)
  obtain ⟨full, hfull, hfilter⟩ := hoptions {} 64
  obtain ⟨shallow, hshallow⟩ := @exists_find_eq_ok { maxDepth := 1 } [] pageTree pageRoot .all
    true rfl
  have hfiles := hfilter { maxDepth := 1 } .all true rfl (by decide)
  rw [hshallow] at hfiles
  have heq : shallow.files = full.files.filter (passes { maxDepth := 1 } .all true []) :=
    Except.ok.inj hfiles
  have hpage : sourceFile pageRoot [.letters 1, pageName] ∈ full.files :=
    (mem_files_unfollowed (DocRoot.resolve_eq_ok resolve_pageTree) rfl
      (starts_of_name (by decide)) rfl hfull).mpr
      ⟨_, isWanted_page, by decide, by decide, rfl⟩
  refine ⟨full, shallow, resolve_pageTree, hfull, hshallow, heq, hpage, ?_, hlinks {} .all true⟩
  rw [heq, List.mem_filter]
  rintro ⟨-, hpass⟩
  have hleft : passes { maxDepth := 1 } .all true [] (sourceFile pageRoot [.letters 1, pageName]) =
      false := by decide
  cases hleft.symm.trans hpass

end Discovery

end DocLint
