/-
Links where more files are found.

* `Probe.Within`: whatever one probe finds, another finds as well.
* `prefix_candidates`: more directories add candidates at the end only;
  `isBroken_eq_false_of_within`: so a target that leads somewhere keeps doing so.
* `scan_sublist_of_within`: more files take defects away and change none.
-/
import DocLint.Proofs.FileSystem.Growth
import DocLint.Proofs.Link.Broken
import DocLint.Run

namespace DocLint

/-- Whether another probe finds whatever this one finds, and takes for directories what
this one does. -/
structure Probe.Within (a b : Probe) : Prop where
  isThere : ∀ p, a.isThere p = true → b.isThere p = true
  isDirectory : ∀ p, a.isDirectory p = true → b.isDirectory p = true

/-- More is found where more is put. -/
lemma FileSystem.Extends.within {fs fs' : FileSystem} (h : fs.Extends fs') :
    fs.probe.Within fs'.probe :=
  ⟨fun _ => h.isThere_of_extends, fun _ => h.isDirectory_of_extends⟩

namespace Link

variable {sourceDir projectRoot : Path} {a b : Probe} {target : List Char}

/-! ### Candidates -/

lemma distinct_prefix_append (ps qs : List Path) : distinct ps <+: distinct (ps ++ qs) := by
  rw [distinct_eq_foldl, distinct_eq_foldl, List.foldl_append]
  exact prefix_foldl_keep _ qs

/-- **More directories** add candidates behind the ones there are. -/
lemma prefix_candidates (h : a.Within b) (target : List Char) :
    candidates sourceDir projectRoot a target <+: candidates sourceDir projectRoot b target := by
  cases hrejected : isRejected target with
  | true =>
      rw [candidates_of_isRejected hrejected]
      exact List.nil_prefix
  | false =>
      rw [candidates_eq_distinct hrejected, candidates_eq_distinct hrejected]
      split_ifs with ha hb
      · exact List.prefix_rfl
      · exact absurd (h.isDirectory _ ha) hb
      · rw [List.append_nil]
        exact distinct_prefix_append _ _
      · exact List.prefix_rfl

lemma isBroken_eq_false_iff : (resolve sourceDir projectRoot a target).isBroken = false ↔
    ∃ p ∈ candidates sourceDir projectRoot a target, a.isThere p = true := by
  rw [Resolution.isBroken, resolve, Option.isNone_eq_false_iff, List.find?_isSome]

/-- A target that leads somewhere does so where more is found. -/
lemma isBroken_eq_false_of_within (h : a.Within b)
    (ha : (resolve sourceDir projectRoot a target).isBroken = false) :
    (resolve sourceDir projectRoot b target).isBroken = false := by
  obtain ⟨p, hp, hthere⟩ := isBroken_eq_false_iff.mp ha
  exact isBroken_eq_false_iff.mpr ⟨p, (prefix_candidates h target).subset hp, h.isThere p hthere⟩

/-! ### Defects -/

lemma isReported_of_within (h : a.Within b) {l : Link}
    (hb : isReported sourceDir projectRoot b l = true) :
    isReported sourceDir projectRoot a l = true := by
  rw [isReported, Bool.and_eq_true] at hb ⊢
  refine ⟨hb.1, ?_⟩
  by_contra ha
  rw [Bool.not_eq_true] at ha
  rw [isBroken_eq_false_of_within h ha] at hb
  exact absurd hb.2 Bool.false_ne_true

/-- The wording of a defect is the same whatever is found, so what is left of the defects
is what it was. -/
lemma scan_sublist (h : a.Within b) (content : String) :
    (scan sourceDir projectRoot b content).Sublist (scan sourceDir projectRoot a content) := by
  rw [scan_eq_map_filter, scan_eq_map_filter]
  refine List.Sublist.map _ (List.monotone_filter_right _ fun l hl => ?_)
  exact isReported_of_within h hl

/-- **More files never break a link**: where more is found, every target keeps its
candidates and may get more behind them, a target that leads somewhere still does, and of
the defects of a text some are left, in the same words. So files and directories that are
created take defects away and change none. -/
theorem scan_sublist_of_within (h : a.Within b) (sourceDir projectRoot : Path)
    (content : String) :
    (∀ target, candidates sourceDir projectRoot a target <+:
      candidates sourceDir projectRoot b target) ∧
    (∀ target, (resolve sourceDir projectRoot a target).isBroken = false →
      (resolve sourceDir projectRoot b target).isBroken = false) ∧
    (scan sourceDir projectRoot b content).Sublist (scan sourceDir projectRoot a content) ∧
    ∀ (fs : FileSystem) (loc : Location) (x : Node), fs.IsVacant loc →
      (scan sourceDir projectRoot (fs.put loc x).probe content).Sublist
        (scan sourceDir projectRoot fs.probe content) :=
  ⟨prefix_candidates h, fun _ => isBroken_eq_false_of_within h, scan_sublist h content,
    fun _ _ x hvacant => scan_sublist (FileSystem.extends_put hvacant x).within content⟩

/-- A probe that finds one file, and one directory besides if asked to. -/
def fileAndDirectory (file : Path) (directory : Option Path) : Probe :=
  ⟨fun p => p = file ∨ some p = directory, fun p => some p = directory⟩

/-- Of two broken links one is mended by a directory, which has an index file as a further
candidate; the other one is reported as before. -/
theorem scan_sublist_of_within_twoLinks :
    let a := fileAndDirectory (.ofString "/d/a.md") none
    let b := fileAndDirectory (.ofString "/d/a.md") (some (.ofString "/d/b"))
    let content := "[x](a)[y](b)\n[z](c)"
    candidates (.ofString "/d") (.ofString "/") a "b".toList <+:
        candidates (.ofString "/d") (.ofString "/") b "b".toList ∧
      (candidates (.ofString "/d") (.ofString "/") b "b".toList).length = 5 ∧
      (scan (.ofString "/d") (.ofString "/") b content).Sublist
        (scan (.ofString "/d") (.ofString "/") a content) ∧
      scan (.ofString "/d") (.ofString "/") b content =
        [.atLine 2 .brokenLink "broken link -> /d/c.md" "[z](c)"] := by
  intro a b content
  have hwithin : a.Within b := by
    refine ⟨fun p hp => ?_, fun p hp => ?_⟩
    · have hfile : p = .ofString "/d/a.md" := by simpa [a, fileAndDirectory] using hp
      rw [hfile]
      decide
    · simp [a, fileAndDirectory] at hp
  obtain ⟨hcandidates, -, hscan, -⟩ :=
    scan_sublist_of_within hwithin (.ofString "/d") (.ofString "/") content
  exact ⟨hcandidates _, by decide +kernel, hscan, by decide +kernel⟩

end Link

end DocLint
