/-
What the bytes of one file can change in a report.

* `resolve_congr`, `find_congr`: the root and what is found below it do not depend
  on the bytes of any file.
* `inspect_congr`: what a check makes of a file depends on the bytes of no other
  file. Links are resolved by what is there, not by what is in it.
* `run_frame`: two runs on file systems that differ in one file differ at most at
  the paths that lead to it; not at all if it lies outside the root, or if only
  names are checked.
-/
import DocLint.Proofs.Discovery.Followed
import DocLint.Proofs.Discovery.Unfollowed
import DocLint.Proofs.FileSystem.Shape
import DocLint.Proofs.Report.Pointwise

namespace DocLint

variable {fs fs' : FileSystem}

/-! ### Finding files -/

lemma DocRoot.resolve_congr (h : fs.SameShape fs') (p : Path) :
    resolve fs p = resolve fs' p := by
  have habs : absolute fs p = absolute fs' p := by
    rw [absolute, absolute, h.workingDirectory]
  simp only [resolve, habs, h.locate_congr, h.realPlace_congr, h.isDirectoryAt_congr]

lemma Discovery.judge_congr (h : fs.SameShape fs') (root : DocRoot) (selection : Selection)
    (ps : List (List Glob.Item)) : judge fs root selection ps = judge fs' root selection ps := by
  have hfile : judgeFile fs root = judgeFile fs' root := by
    funext f
    rw [judgeFile, judgeFile, h.realPlace_congr]
  funext v
  cases v with
  | failure trail cause => rfl
  | entry trail kind =>
      cases kind with
      | file => simp only [judge, hfile]
      | _ => rfl

/-- What is found does not depend on the bytes of files. -/
lemma Discovery.find_congr (h : fs.SameShape fs') (root : DocRoot) (c : Config)
    (selection : Selection) (skipArchive : Bool) :
    find fs root c selection skipArchive = find fs' root c selection skipArchive := by
  simp only [find, h.visits_congr, judge_congr h]

/-! ### Looking at files -/

lemma FileSystem.SameShape.probe_congr (h : fs.SameShape fs') : fs.probe = fs'.probe := by
  rw [probe, probe, funext h.isThere_congr, funext h.isDirectory_congr]

lemma Check.scan_congr (h : fs.SameShape fs') (c : Check) (root : DocRoot) (config : Config)
    (f : SourceFile) : c.scan fs root config f = c.scan fs' root config f := by
  funext content
  cases c with
  | links => rw [scan, scan, h.probe_congr]
  | _ => rfl

/-- A file that is resolved to another place, or to none, is judged the same. -/
lemma Check.inspect_congr {g : Location} (h : FileSystem.DiffersOnlyAt g fs fs') (c : Check)
    (root : DocRoot) (config : Config) {f : SourceFile}
    (hf : ∃ place, fs.realPlace f.path = .ok place ∧ place ≠ g) :
    c.inspect fs root config f = c.inspect fs' root config f := by
  obtain ⟨place, hplace, hne⟩ := hf
  have hlocate : fs.locate f.path ≠ .ok g := fun hg =>
    hne (FileSystem.eq_of_realPlace_of_locate hplace hg)
  by_cases hc : c = .filenames
  · rw [hc]
    rfl
  · rw [inspect_of_ne hc, inspect_of_ne hc, readBounded, readBounded, h.read_congr hlocate,
      Check.scan_congr h.sameShape]

/-! ### Reports -/

lemma Check.reportOn_congr {c : Check} {root : DocRoot} {config : Config} {d : Discovery}
    (h : ∀ f ∈ d.files, c.inspect fs root config f = c.inspect fs' root config f) :
    c.reportOn fs root config d = c.reportOn fs' root config d := by
  have hresults : (d.files.map fun f => (f.relative, c.inspect fs root config f)) =
      d.files.map fun f => (f.relative, c.inspect fs' root config f) :=
    List.map_congr_left fun f hf => by rw [h f hf]
  rw [reportOn, reportOn, hresults]

/-- Where the files of a path have the same violations by themselves, two reports
list the same under it. -/
lemma Report.IsPointwise.get?_congr {r r' : Report} {d : Discovery}
    {own own' : SourceFile → List Violation} {p : Path} (hr : r.IsPointwise d own)
    (hr' : r'.IsPointwise d own')
    (h : ∀ f ∈ d.files, f.relative.Same p → own f = own' f) :
    r.findings.get? p = r'.findings.get? p := by
  refine Option.ext fun vs => ?_
  rw [hr.get?_eq_some_iff, hr'.get?_eq_some_iff]
  refine or_congr Iff.rfl (exists_congr fun f => and_congr_right fun hf =>
    and_congr_right fun hp => ?_)
  rw [h f hf hp]

/-- **One file changes nothing but its own entries**: where two file systems differ
in the bytes of one file, a check that runs on the one runs on the other, and both
report the same at every path that does not lead to the file. The reports are equal
if the file lies outside the root or if only names are checked. -/
theorem Check.run_frame {g : Location} {c : Check} {config : Config} {r : Report}
    (h : FileSystem.DiffersOnlyAt g fs fs') (hr : c.run fs config = .ok r) :
    ∃ root d r', DocRoot.resolve fs config.root = .ok root ∧
      Discovery.find fs root config (c.selection config) (c.leavesArchive config) = .ok d ∧
      c.run fs' config = .ok r' ∧
      (∀ p, (∀ f ∈ d.files, f.relative.Same p → fs.realPlace f.path ≠ .ok g) →
        r.findings.get? p = r'.findings.get? p) ∧
      (¬ root.canonical <+: g ∨ c = .filenames → r = r') := by
  obtain ⟨root, d, hroot, hfind, rfl⟩ := run_eq_ok_iff.mp hr
  have hfind' : Discovery.find fs' root config (c.selection config) (c.leavesArchive config) =
      .ok d := by rw [← Discovery.find_congr h.sameShape, hfind]
  have hrun' : c.run fs' config = .ok (c.reportOn fs' root config d) :=
    run_eq_ok_iff.mpr ⟨root, d, by rw [← DocRoot.resolve_congr h.sameShape, hroot], hfind', rfl⟩
  -- Every file that is found is resolved, to a place below the root.
  have hplaced : ∀ f ∈ d.files, ∃ place, fs.realPlace f.path = .ok place ∧
      root.canonical <+: place := by
    intro f hf
    obtain ⟨ps, hps, -⟩ := Discovery.find_eq_ok_iff.mp hfind
    obtain ⟨place, -, hplace, -, hbelow⟩ :=
      Discovery.exists_place_of_mem_files (DocRoot.resolve_eq_ok hroot) hps hfind hf
    exact ⟨place, hplace, hbelow⟩
  refine ⟨root, d, _, hroot, hfind, hrun', fun p hp => ?_, fun hout => ?_⟩
  · refine (Report.isPointwise_reportOn hfind).get?_congr (Report.isPointwise_reportOn hfind')
      fun f hf hsame => ?_
    obtain ⟨place, hplace, -⟩ := hplaced f hf
    have hne : place ≠ g := fun heq => hp f hf hsame (by rw [hplace, heq])
    rw [← violationsOf_inspect, ← violationsOf_inspect,
      Check.inspect_congr h c root config ⟨place, hplace, hne⟩]
  · refine reportOn_congr fun f hf => ?_
    obtain ⟨place, hplace, hbelow⟩ := hplaced f hf
    rcases hout with hout | rfl
    · exact Check.inspect_congr h c root config
        ⟨place, hplace, fun heq => hout (heq ▸ hbelow)⟩
    · rfl

section Book

open Discovery

/-- The name `c`. -/
def partName : FileName := ⟨[0x63], by decide⟩

/-- The name `b.md`. -/
def innerName : FileName := ⟨[0x62, 0x2E, 0x6D, 0x64], by decide⟩

/-- The name `c-b.md`. -/
def outerName : FileName := ⟨[0x63, 0x2D, 0x62, 0x2E, 0x6D, 0x64], by decide⟩

/-- A line that opens a code block. -/
def fenceLine : ByteArray := ⟨#[0x60, 0x60, 0x60]⟩

/-- Below a root a page in a directory, which holds some bytes, and another page next to the
directory, which opens a code block; and a link to the root. -/
def bookTree (content : ByteArray) : FileSystem :=
  ⟨[(.letters 0, .directory [(partName, .directory [(innerName, .file content)]),
    (outerName, .file fenceLine), (.letters 1, .link ⟨[dot]⟩)])], []⟩

/-- The options of a run below that root. -/
def bookConfig : Config := { root := .ofNames [.letters 0] }

variable {content : ByteArray} {selection : Selection} {t : List FileName}

lemma resolve_bookTree (content : ByteArray) :
    DocRoot.resolve (bookTree content) (.ofNames [.letters 0]) = .ok pageRoot := by
  have hdir : (bookTree content).node? pageRoot.canonical = some (.directory
      [(partName, .directory [(innerName, .file content)]), (outerName, .file fenceLine),
        (.letters 1, .link ⟨[dot]⟩)]) := rfl
  obtain ⟨hlocate, hreal⟩ := FileSystem.locate_ofNames_of_node? hdir rfl (by decide)
  exact DocRoot.resolve_ofNames hlocate hreal hdir

/-- Both pages are to be looked at. -/
lemma isWanted_bookTree (ht : t = [partName, innerName] ∨ t = [outerName])
    (hselected : t.getLast?.any selection.selects = true) :
    IsWanted (bookTree content) pageRoot bookConfig selection false [] t where
  isFile := by rcases ht with rfl | rfl <;> exact ⟨_, rfl⟩
  inDirectories _ hs hne := by
    rcases ht with rfl | rfl
    · exact FileSystem.exists_directory_of_prefix (x := .file content) rfl hs hne
    · exact FileSystem.exists_directory_of_prefix (x := .file fenceLine) rfl hs hne
  depth := by rcases ht with rfl | rfl <;> decide
  notSkipped := by rcases ht with rfl | rfl <;> decide
  notArchived h := nomatch h
  selected := hselected
  kept _ _ := rfl

/-- Both pages are found. -/
lemma mem_files_bookTree {d : Discovery}
    (h : find (bookTree content) pageRoot bookConfig selection false = .ok d)
    (ht : t = [partName, innerName] ∨ t = [outerName])
    (hselected : t.getLast?.any selection.selects = true) : sourceFile pageRoot t ∈ d.files := by
  refine (mem_files_unfollowed (DocRoot.resolve_eq_ok (resolve_bookTree content)) rfl
    (starts_of_name (by decide)) rfl h).mpr ⟨t, isWanted_bookTree ht hselected, ?_, ?_, rfl⟩
  all_goals rcases ht with rfl | rfl <;> decide

lemma exists_run_bookTree (content : ByteArray) :
    ∃ r, Check.fences.run (bookTree content) bookConfig = .ok r := by
  obtain ⟨d, hfind⟩ := @exists_find_eq_ok bookConfig [] (bookTree content) pageRoot
    (.withExtensions [".md"]) false rfl
  exact ⟨_, Check.run_eq_ok_iff.mpr ⟨pageRoot, d, resolve_bookTree content, hfind, rfl⟩⟩

/-- What is wrong with a page is what its own bytes say. -/
lemma ownViolations_bookTree {config : Config} {bytes : ByteArray} {text : String}
    (ht : t = [partName, innerName] ∨ t = [outerName])
    (hbytes : (bookTree content).node? (pageRoot.canonical ++ t) = some (.file bytes))
    (htext : boundedText config.maxFileSize bytes = .ok text) :
    Check.fences.ownViolations (bookTree content) pageRoot config (sourceFile pageRoot t) =
      Fence.scan text := by
  have hshort : (pageRoot.path.along t).isShort = true := by rcases ht with rfl | rfl <;> decide
  have hlocate := locate_along (DocRoot.resolve_eq_ok (resolve_bookTree content)) hbytes rfl
  rw [if_pos hshort] at hlocate
  have hread : (bookTree content).read (sourceFile pageRoot t).path = .ok bytes := by
    rw [FileSystem.read, sourceFile, hlocate]
    dsimp only
    rw [hbytes]
  rw [Check.ownViolations, if_neg (by decide), readBounded, hread]
  dsimp only
  rw [htext]
  rfl

/-- And that is reported. -/
lemma get?_bookTree {r : Report} {bytes : ByteArray} {text : String}
    (hrun : Check.fences.run (bookTree content) bookConfig = .ok r)
    (ht : t = [partName, innerName] ∨ t = [outerName])
    (hbytes : (bookTree content).node? (pageRoot.canonical ++ t) = some (.file bytes))
    (htext : boundedText bookConfig.maxFileSize bytes = .ok text) (hne : Fence.scan text ≠ []) :
    r.findings.get? (.ofRelativeNames t) = some (Fence.scan text) := by
  obtain ⟨root, d, hroot, hfind, rfl⟩ := Check.run_eq_ok_iff.mp hrun
  cases (resolve_bookTree content).symm.trans hroot
  have hown := ownViolations_bookTree ht hbytes htext
  have hfile : sourceFile pageRoot t ∈ d.files :=
    mem_files_bookTree hfind ht (by rcases ht with rfl | rfl <;> decide)
  refine ((Report.isPointwise_reportOn hfind).get?_eq_some_iff _ _).mpr
    (Or.inr ⟨_, hfile, rfl, ?_, hown.symm⟩)
  rwa [hown]

/-- Closing the code block of one page changes what is said of it, and nothing that is said of
the other page. -/
theorem Check.run_frame_bookTree : ∃ r r',
    fences.run (bookTree fenceLine) bookConfig = .ok r ∧
    fences.run (bookTree "```\n```".toUTF8) bookConfig = .ok r' ∧
    r.findings.get? (.ofRelativeNames [partName, innerName]) = some (Fence.scan "```") ∧
    r'.findings.get? (.ofRelativeNames [partName, innerName]) = some (Fence.scan "```\n```") ∧
    Fence.scan "```" ≠ Fence.scan "```\n```" ∧
    r.findings.get? (.ofRelativeNames [outerName]) = some (Fence.scan "```") ∧
    r'.findings.get? (.ofRelativeNames [outerName]) =
      r.findings.get? (.ofRelativeNames [outerName]) := by
  have hinner : (bookTree fenceLine).node? [.letters 0, partName, innerName] =
    some (.file fenceLine) := rfl
  have hput : (bookTree fenceLine).put [.letters 0, partName, innerName]
    (.file "```\n```".toUTF8) = bookTree "```\n```".toUTF8 := rfl
  obtain ⟨r, hrun⟩ := exists_run_bookTree fenceLine
  obtain ⟨root, d, r', hroot, hfind, hrun', hsame, -⟩ :=
    run_frame (hput ▸ FileSystem.differsOnlyAt_put hinner) hrun
  cases (resolve_bookTree fenceLine).symm.trans hroot
  refine ⟨r, r', hrun, hrun', get?_bookTree hrun (.inl rfl) rfl rfl (by decide),
    get?_bookTree hrun' (.inl rfl) rfl rfl (by decide), by decide,
    get?_bookTree hrun (.inr rfl) rfl rfl (by decide), (hsame _ fun f hf hpath => ?_).symm⟩
  -- The one file of that path is the other page, which is elsewhere.
  obtain ⟨t, hwanted, -, -, rfl⟩ := (mem_files_unfollowed (DocRoot.resolve_eq_ok hroot) rfl
    (starts_of_name (by decide)) rfl hfind).mp hf
  rw [Path.Same, sourceFile, Path.components_ofRelativeNames, Path.components_ofRelativeNames,
    List.map_singleton, List.map_eq_singleton_iff] at hpath
  obtain ⟨n, rfl, hn⟩ := hpath
  cases hn
  rw [sourceFile, hwanted.realPlace_eq (DocRoot.resolve_eq_ok hroot), if_pos (by decide)]
  exact fun heq => absurd (Except.ok.inj heq) (by decide)

end Book

end DocLint
