/-
Which links of a text are reported.

* `trim_target_of_mem_extract`: the target of a link has no blanks around it.
* `isBroken_of_isPath`, `reported_of_isPath`: when a target that names a path is
  broken, and what is named of it then.
* `leadsNowhere`: a link that names a path, and either none at all or one with
  nothing at the places that decide.
* `scan_eq_map_filter`: the defects of a text are those of the links that are reported,
  always worded alike; `isReported_eq`: these are the links that lead nowhere.
* `scan_eq_map_brokenLink`: the defects of a text are those of the links that lead
  nowhere, whatever index files there are.
-/
import DocLint.Link.Check
import DocLint.Proofs.Link.Candidates
import DocLint.Proofs.Link.Occurrences
import DocLint.Proofs.Text.Trim

namespace DocLint.Link

variable {sourceDir projectRoot : Path} {probe : Probe} {target : List Char} {l : Link}

/-! ### Targets -/

lemma trim_target_of_mem_extract {content : String} (h : l ∈ extract content) :
    Text.trim l.target = l.target := by
  obtain ⟨os, -, hlinks⟩ := exists_isGreedy_extract content
  rw [hlinks] at h
  obtain ⟨o, -, rfl⟩ := List.mem_map.mp h
  exact Text.trim_trim o.form.target

/-- A target that names a path is rejected only if it is blank. -/
lemma isRejected_of_isPath {target : List Char} (h : isPath target = true) :
    isRejected target = (Text.trim target).isEmpty := by
  rw [isPath, Bool.and_eq_true, Bool.not_eq_true', Bool.not_eq_true'] at h
  rw [isRejected, h.1, h.2, Bool.or_false, Bool.or_false]

/-- A target that names a path is broken if it is blank or its base is dead. -/
lemma isBroken_of_isPath (hsource : sourceDir.isAbsolute = true)
    (hproject : projectRoot.isAbsolute = true)
    (hprobe : ∀ p, probe.isDirectory p = true → probe.isThere p = true)
    (h : isPath target = true) :
    (resolve sourceDir projectRoot probe target).isBroken =
      ((Text.trim target).isEmpty || isDead probe (base sourceDir projectRoot target)) := by
  have hrejected := isRejected_of_isPath h
  cases hblank : (Text.trim target).isEmpty with
  | true =>
      rw [hblank] at hrejected
      rw [resolve, candidates_of_isRejected hrejected]
      rfl
  | false =>
      rw [hblank] at hrejected
      rw [isBroken_resolve hsource hproject hprobe hrejected, Bool.false_or]

/-- The text of the path that is looked for first, if there is any to look for. -/
def guessText (sourceDir projectRoot : Path) (target : List Char) : List Char :=
  if (Text.trim target).isEmpty then []
  else (firstGuess (base sourceDir projectRoot target)).text

/-- What is named of a broken target that has no blanks around it. -/
lemma reported_of_isPath (h : isPath target = true) (htrim : Text.trim target = target)
    (hbroken : (resolve sourceDir projectRoot probe target).isBroken = true) :
    ((resolve sourceDir projectRoot probe target).reported.map Path.text).getD target =
      guessText sourceDir projectRoot target := by
  have hrejected := isRejected_of_isPath h
  rw [guessText]
  split_ifs with hblank
  · rw [hblank] at hrejected
    rw [resolve, candidates_of_isRejected hrejected]
    have hempty : target = [] := by rwa [htrim, List.isEmpty_iff] at hblank
    exact hempty
  · rw [Bool.eq_false_iff.mpr hblank] at hrejected
    rw [reported_resolve hrejected hbroken]
    rfl

/-! ### Links that lead nowhere -/

/-- Whether a link names a path, and either none at all or one with nothing at it nor,
if it has no extension, at it with one of the usual extensions. -/
def leadsNowhere (sourceDir projectRoot : Path) (probe : Probe) (l : Link) : Bool :=
  isPath l.target &&
    ((Text.trim l.target).isEmpty || isDead probe (base sourceDir projectRoot l.target))

/-- The defect of a link that leads nowhere. -/
def brokenLink (sourceDir projectRoot : Path) (l : Link) : Violation :=
  .atLine l.line .brokenLink
    (String.ofList ("broken link -> ".toList ++ guessText sourceDir projectRoot l.target))
    (String.ofList l.markdown)

/-- Whether a link is reported: it names a path, and has no candidate there. -/
def isReported (sourceDir projectRoot : Path) (probe : Probe) (l : Link) : Bool :=
  isPath l.target && (resolve sourceDir projectRoot probe l.target).isBroken

/-- The defect of a link is always worded alike. -/
lemma violation?_eq_ite (htrim : Text.trim l.target = l.target) :
    violation? sourceDir projectRoot probe l =
      if isReported sourceDir projectRoot probe l then some (brokenLink sourceDir projectRoot l)
      else none := by
  rw [violation?, isReported]
  cases hpath : isPath l.target with
  | false => rfl
  | true =>
      rw [Bool.true_and, if_pos rfl]
      dsimp only
      split_ifs with h
      · rw [reported_of_isPath hpath htrim h, brokenLink]
      · rfl

/-- The defects of a text are those of the links that are reported, in order. -/
lemma scan_eq_map_filter (sourceDir projectRoot : Path) (probe : Probe) (content : String) :
    scan sourceDir projectRoot probe content =
      ((extract content).filter (isReported sourceDir projectRoot probe)).map
        (brokenLink sourceDir projectRoot) := by
  have heach : ∀ l ∈ extract content, violation? sourceDir projectRoot probe l =
      Option.map (brokenLink sourceDir projectRoot)
        (Option.guard (isReported sourceDir projectRoot probe) l) := by
    intro l hl
    rw [violation?_eq_ite (trim_target_of_mem_extract hl), Option.guard]
    split_ifs <;> rfl
  rw [scan, List.filterMap_congr heach, ← List.map_filterMap, List.filterMap_eq_filter]

/-- **One link**: it is reported exactly if it leads nowhere. -/
lemma isReported_eq (hsource : sourceDir.isAbsolute = true)
    (hproject : projectRoot.isAbsolute = true)
    (hprobe : ∀ p, probe.isDirectory p = true → probe.isThere p = true) (l : Link) :
    isReported sourceDir projectRoot probe l = leadsNowhere sourceDir projectRoot probe l := by
  rw [isReported, leadsNowhere]
  cases hpath : isPath l.target with
  | false => rfl
  | true => rw [isBroken_of_isPath hsource hproject hprobe hpath]

lemma scan_eq_of_isThere (hsource : sourceDir.isAbsolute = true)
    (hproject : projectRoot.isAbsolute = true)
    (hprobe : ∀ p, probe.isDirectory p = true → probe.isThere p = true) (content : String) :
    scan sourceDir projectRoot probe content =
      ((extract content).filter (leadsNowhere sourceDir projectRoot probe)).map
        (brokenLink sourceDir projectRoot) := by
  rw [scan_eq_map_filter, List.filter_congr fun l _ => isReported_eq hsource hproject hprobe l]

/-- **What is reported of links**: where every directory is there, the defects of a text
are those of its links that lead nowhere, in order. Index files make no difference:
if no path were taken for a directory, the same links would be reported. -/
theorem scan_eq_map_brokenLink (hsource : sourceDir.isAbsolute = true)
    (hproject : projectRoot.isAbsolute = true)
    (hprobe : ∀ p, probe.isDirectory p = true → probe.isThere p = true) (content : String) :
    scan sourceDir projectRoot probe content =
        ((extract content).filter (leadsNowhere sourceDir projectRoot probe)).map
          (brokenLink sourceDir projectRoot) ∧
      scan sourceDir projectRoot { probe with isDirectory := fun _ => false } content =
        scan sourceDir projectRoot probe content := by
  have hscan := scan_eq_of_isThere hsource hproject hprobe content
  have hnone := @scan_eq_of_isThere sourceDir projectRoot
    { probe with isDirectory := fun _ => false } hsource hproject
    (fun p hp => absurd hp Bool.false_ne_true) content
  -- Which links lead nowhere does not depend on what is a directory.
  exact ⟨hscan, hnone.trans hscan.symm⟩

/-- A probe that finds one directory, and nothing else. -/
def oneDirectory (p : Path) : Probe :=
  ⟨fun q => decide (q = p), fun q => decide (q = p)⟩

/-- Of a link to a directory without an index file, one to nothing and one without a
target the last two are reported. -/
theorem scan_eq_map_brokenLink_oneDirectory :
    scan (.ofString "/d") (.ofString "/") (oneDirectory (.ofString "/d/b"))
        "[a](b)[c](e/../f)\n[g]( )" =
      [.atLine 1 .brokenLink "broken link -> /d/f.md" "[c](e/../f)",
        .atLine 2 .brokenLink "broken link -> " "[g]()"] := by
  rw [(scan_eq_map_brokenLink (by decide) (by decide) (fun _ h => h) _).1]
  decide +kernel

end DocLint.Link
