/-
Files, errors and reports come in the order of the walk.

* `Discovery.IsInOrder`: files and errors are in the order of paths, no path is
  both, and a file is where its path behind that of the root leads.
* `isInOrder_find`: whatever is found is in order, whether or not links are
  followed.
* `sublist_entries_reportOn`: a report lists paths in the order in which the walk
  comes by them.
* `exists_run_in_order`: both hold of every run below a root that is found.
-/
import Mathlib.Data.List.Sort
import DocLint.Proofs.Discovery.Filtered
import DocLint.Proofs.Report.Frame

namespace DocLint

/-- What one function picks from a list, in the order in which another lists it. -/
lemma filterMap_sublist_map {α β : Type} {f : α → Option β} {g : α → β}
    (h : ∀ a b, f a = some b → b = g a) (l : List α) : (l.filterMap f).Sublist (l.map g) := by
  induction l with
  | nil => exact .slnil
  | cons a l ih =>
      rw [List.map_cons]
      cases hf : f a with
      | none =>
          rw [List.filterMap_cons_none hf]
          exact ih.cons _
      | some b =>
          rw [List.filterMap_cons_some hf, h a b hf]
          exact ih.cons_cons _

/-- What is in the order of paths, and among other things in that order, is listed there one after
another. -/
lemma sublist_of_pairwise_key {α : Type} {g : α → Path} {l m : List α}
    (hl : l.Pairwise fun a b => (g a).key < (g b).key)
    (hm : m.Pairwise fun a b => (g a).key < (g b).key) (h : l ⊆ m) : l.Sublist m := by
  have hnodup : l.Nodup := hl.imp fun {a b} hlt heq => by
    subst heq
    exact List.lt_irrefl _ hlt
  have : Std.Antisymm fun a b : α => (g a).key < (g b).key :=
    ⟨fun a _ hab hba => absurd (List.lt_trans hab hba) (List.lt_irrefl (g a).key)⟩
  exact List.sublist_of_subperm_of_pairwise (List.subperm_of_subset hnodup h) hl hm

namespace Discovery

/-- Whether a discovery is in the order of paths, names one after another and by
their bytes. -/
structure IsInOrder (root : DocRoot) (d : Discovery) : Prop where
  files : d.files.Pairwise fun f g => f.relative.key < g.relative.key
  errors : d.errors.Pairwise fun e e' => e.1.key < e'.1.key
  /-- No file is an error as well. -/
  apart : ∀ f ∈ d.files, ∀ e ∈ d.errors, ¬ e.1.Same f.relative
  join : ∀ f ∈ d.files, root.path.join f.relative = f.path
  relative : ∀ f ∈ d.files, root.relative f.path = f.relative
  /-- No file is looked at twice. -/
  once : (d.files.map (·.path)).Pairwise fun p q => ¬ p.Same q

variable {fs : FileSystem} {root : DocRoot} {c : Config} {selection : Selection}
  {skipArchive : Bool} {ps : List (List Glob.Item)} {d : Discovery} {t u : List FileName}

/-! ### Files by their names -/

lemma exists_sourceFile (h : find fs root c selection skipArchive = .ok d) {f : SourceFile}
    (hf : f ∈ d.files) : ∃ t, t ≠ [] ∧ f = sourceFile root t := by
  obtain ⟨ps, hps, -⟩ := find_eq_ok_iff.mp h
  obtain ⟨dir, ds, n, entry, place, -, -, -, rfl⟩ := (mem_files_iff hps h).mp hf
  exact ⟨dir.trail ++ [n], List.append_ne_nil_of_right_ne_nil _ (List.cons_ne_nil n []), rfl⟩

lemma join_sourceFile (hroot : root.IsResolved fs) (ht : t ≠ []) :
    root.path.join (sourceFile root t).relative = (sourceFile root t).path := by
  obtain ⟨ns, hns⟩ := hroot.names
  rw [sourceFile, hns, Path.along_ofNames]
  exact Path.join_ofRelativeNames ns ht

lemma relative_sourceFile (hroot : root.IsResolved fs) (t : List FileName) :
    root.relative (sourceFile root t).path = (sourceFile root t).relative := by
  obtain ⟨ns, hns⟩ := hroot.names
  rw [sourceFile, DocRoot.relative, hns, Path.along_ofNames, Path.below?_ofNames,
    Option.getD_some]

/-- Files of one path below the root are of one path. -/
lemma same_relative_sourceFile (hroot : root.IsResolved fs)
    (h : (sourceFile root t).path.Same (sourceFile root u).path) :
    (sourceFile root t).relative.Same (sourceFile root u).relative := by
  obtain ⟨ns, hns⟩ := hroot.names
  rw [sourceFile, sourceFile, hns, Path.along_ofNames, Path.along_ofNames, Path.Same,
    Path.components_ofNames, Path.components_ofNames, List.map_append, List.map_append] at h
  rw [sourceFile, sourceFile, Path.Same, Path.components_ofRelativeNames,
    Path.components_ofRelativeNames]
  exact List.append_cancel_left (List.cons.inj h).2

/-- **Whatever is found is in order.** -/
lemma isInOrder_find (hroot : root.IsResolved fs)
    (h : find fs root c selection skipArchive = .ok d) : d.IsInOrder root where
  files := pairwise_files h
  errors := pairwise_errors h
  apart f hf e he hsame := key_ne_of_mem h he hf (Path.key_eq_key_iff.mpr hsame)
  join f hf := by
    obtain ⟨t, ht, rfl⟩ := exists_sourceFile h hf
    exact join_sourceFile hroot ht
  relative f hf := by
    obtain ⟨t, -, rfl⟩ := exists_sourceFile h hf
    exact relative_sourceFile hroot t
  once := by
    refine List.pairwise_map.mpr ((pairwise_files h).imp_of_mem fun {f g} hf hg hlt hsame => ?_)
    obtain ⟨t, -, rfl⟩ := exists_sourceFile h hf
    obtain ⟨u, -, rfl⟩ := exists_sourceFile h hg
    exact not_same_of_key_lt hlt (same_relative_sourceFile hroot hsame)

/-! ### Reports along the walk -/

/-- The paths that there is a verdict on are among those of the visits. -/
lemma sublist_relative_verdicts (fs : FileSystem) (root : DocRoot) (c : Config)
    (selection : Selection) (skipArchive : Bool) (ps : List (List Glob.Item)) :
    ((verdicts fs root c selection skipArchive ps).filterMap Verdict.relative?).Sublist
      ((fs.visits (rules c skipArchive) root.path root.canonical).map
        fun v => .ofRelativeNames v.trail) := by
  rw [verdicts, List.filterMap_map]
  exact filterMap_sublist_map (fun v p hp => (relative?_judge hp).1) _

lemma pairwise_relative_verdicts (fs : FileSystem) (root : DocRoot) (c : Config)
    (selection : Selection) (skipArchive : Bool) (ps : List (List Glob.Item)) :
    ((verdicts fs root c selection skipArchive ps).filterMap Verdict.relative?).Pairwise
      fun p q => p.key < q.key :=
  List.pairwise_filterMap.mpr (pairwise_verdicts fs root c selection skipArchive ps)

/-- Every path that is listed is one that there is a verdict on. -/
lemma mem_relative_verdicts {k : Check} {p : Path} (hps : patterns c.exclude = .ok ps)
    (h : find fs root c selection skipArchive = .ok d)
    (hp : p ∈ (k.reportOn fs root c d).findings.entries.map (·.1)) :
    p ∈ (verdicts fs root c selection skipArchive ps).filterMap Verdict.relative? := by
  obtain ⟨x, hx, rfl⟩ := List.mem_map.mp hp
  obtain ⟨ps', hps', rfl⟩ := find_eq_ok_iff.mp h
  cases hps.symm.trans hps'
  rw [List.mem_filterMap]
  rcases (Report.mem_entries_reportOn h).mp hx with ⟨e, he, rfl⟩ | ⟨f, hf, -, rfl⟩
  · exact ⟨_, mem_errors_ofVerdicts.mp he, rfl⟩
  · exact ⟨_, mem_files_ofVerdicts.mp hf, rfl⟩

/-- **A report goes along the walk**: what it lists, it lists in the order of the
visits. -/
lemma sublist_entries_reportOn (k : Check) (h : find fs root c selection skipArchive = .ok d) :
    ((k.reportOn fs root c d).findings.entries.map (·.1)).Sublist
      ((fs.visits (rules c skipArchive) root.path root.canonical).map
        fun v => .ofRelativeNames v.trail) := by
  obtain ⟨ps, hps, -⟩ := find_eq_ok_iff.mp h
  have hverdicts := pairwise_relative_verdicts fs root c selection skipArchive ps
  have hentries : ((k.reportOn fs root c d).findings.entries.map (·.1)).Pairwise
      fun p q => p.key < q.key := List.pairwise_map.mpr (k.reportOn fs root c d).findings.sorted
  -- Both are in strict order, so all of the one are found in the other in that order.
  exact (sublist_of_pairwise_key (g := id) hentries hverdicts
    fun p hp => mem_relative_verdicts hps h hp).trans
    (sublist_relative_verdicts fs root c selection skipArchive ps)

end Discovery

/-- **Runs go in the order of the walk**: below a root that is found, whatever the
selection and whether or not links are followed, files and errors are found in the
order of paths, each path once and none as both; and every report lists paths in
the order in which the walk comes by them. -/
theorem Check.exists_run_in_order {fs : FileSystem} {root : DocRoot} {config : Config}
    {ps : List (List Glob.Item)} (hroot : DocRoot.resolve fs config.root = .ok root)
    (hps : Discovery.patterns config.exclude = .ok ps) :
    (∀ selection skipArchive, ∃ d,
      Discovery.find fs root config selection skipArchive = .ok d ∧ d.IsInOrder root) ∧
    ∀ c : Check, ∃ r, c.run fs config = .ok r ∧
      (r.findings.entries.map (·.1)).Sublist
        ((fs.visits (Discovery.rules config (c.leavesArchive config)) root.path
          root.canonical).map fun v => .ofRelativeNames v.trail) := by
  have hresolved := DocRoot.resolve_eq_ok hroot
  constructor
  · intro selection skipArchive
    obtain ⟨d, hfind⟩ := Discovery.exists_find_eq_ok fs root selection skipArchive hps
    exact ⟨d, hfind, Discovery.isInOrder_find hresolved hfind⟩
  · intro c
    obtain ⟨d, hfind⟩ :=
      Discovery.exists_find_eq_ok fs root (c.selection config) (c.leavesArchive config) hps
    exact ⟨_, run_eq_ok_iff.mpr ⟨root, d, hroot, hfind, rfl⟩,
      Discovery.sublist_entries_reportOn c hfind⟩

section Book

open Discovery

/-- Following links, both pages are found as well. -/
lemma mem_files_followed_bookTree {content : ByteArray} {selection : Selection} {d : Discovery}
    {t : List FileName} (h : find (bookTree content) pageRoot
      { bookConfig with followLinks := true } selection false = .ok d)
    (ht : t = [partName, innerName] ∨ t = [outerName])
    (hselected : t.getLast?.any selection.selects = true) : sourceFile pageRoot t ∈ d.files := by
  have hresolved := DocRoot.resolve_eq_ok (resolve_bookTree content)
  obtain ⟨found, hfound⟩ := @exists_find_eq_ok bookConfig [] (bookTree content) pageRoot
    selection false rfl
  have hfilter := files_eq_filter (q := fun f => !isBehindLink (bookTree content) pageRoot f)
    hfound h rfl rfl fun _ _ _ _ =>
      reachesFile_unfollowed_iff (c := bookConfig) hresolved (by decide)
  have hmem := mem_files_bookTree hfound ht hselected
  rw [hfilter] at hmem
  exact (List.mem_filter.mp hmem).1

/-- And both are listed if both open a code block. -/
lemma mem_entries_followed_bookTree {r : Report} {t : List FileName}
    (hrun : Check.fences.run (bookTree fenceLine) { bookConfig with followLinks := true } = .ok r)
    (ht : t = [partName, innerName] ∨ t = [outerName])
    (hbytes : (bookTree fenceLine).node? (pageRoot.canonical ++ t) = some (.file fenceLine)) :
    .ofRelativeNames t ∈ r.findings.entries.map (·.1) := by
  obtain ⟨root, d, hroot, hfind, rfl⟩ := Check.run_eq_ok_iff.mp hrun
  cases (resolve_bookTree fenceLine).symm.trans hroot
  have hown : Check.fences.ownViolations (bookTree fenceLine) pageRoot
      { bookConfig with followLinks := true } (sourceFile pageRoot t) = Fence.scan "```" :=
    ownViolations_bookTree ht hbytes rfl
  have hfile : sourceFile pageRoot t ∈ d.files :=
    mem_files_followed_bookTree hfind ht (by rcases ht with rfl | rfl <;> decide)
  refine List.mem_map.mpr ⟨_, (Report.mem_entries_reportOn hfind).mpr
    (Or.inr ⟨_, hfile, ?_, rfl⟩), rfl⟩
  rw [hown]
  decide

/-- The page in a directory comes before the one whose name goes on with a hyphen, though a hyphen
comes before a slash. -/
theorem Check.exists_run_in_order_bookTree :
    (∃ d, find (bookTree fenceLine) pageRoot { bookConfig with followLinks := true } .all false =
        .ok d ∧ d.IsInOrder pageRoot ∧
      [sourceFile pageRoot [partName, innerName], sourceFile pageRoot [outerName]].Sublist
        d.files) ∧
    ∃ r, fences.run (bookTree fenceLine) { bookConfig with followLinks := true } = .ok r ∧
      [.ofRelativeNames [partName, innerName], .ofRelativeNames [outerName]].Sublist
        (r.findings.entries.map (·.1)) ∧
      (r.findings.entries.map (·.1)).Sublist
        (((bookTree fenceLine).visits (rules { bookConfig with followLinks := true } false)
          pageRoot.path pageRoot.canonical).map fun v => .ofRelativeNames v.trail) := by
  obtain ⟨hfind, hrun⟩ := @exists_run_in_order (bookTree fenceLine) pageRoot
    { bookConfig with followLinks := true } [] (resolve_bookTree fenceLine) rfl
  obtain ⟨d, hd, horder⟩ := hfind .all false
  obtain ⟨r, hr, hsub⟩ := hrun fences
  refine ⟨⟨d, hd, horder, ?_⟩, r, hr, ?_, hsub⟩
  · refine sublist_of_pairwise_key (g := (·.relative)) (by decide) horder.files ?_
    exact List.cons_subset.mpr ⟨mem_files_followed_bookTree hd (.inl rfl) rfl,
      List.cons_subset.mpr ⟨mem_files_followed_bookTree hd (.inr rfl) rfl, List.nil_subset _⟩⟩
  · refine sublist_of_pairwise_key (g := id) (by decide)
      (List.pairwise_map.mpr r.findings.sorted) ?_
    exact List.cons_subset.mpr ⟨mem_entries_followed_bookTree hr (.inl rfl) rfl,
      List.cons_subset.mpr ⟨mem_entries_followed_bookTree hr (.inr rfl) rfl, List.nil_subset _⟩⟩

end Book

end DocLint
