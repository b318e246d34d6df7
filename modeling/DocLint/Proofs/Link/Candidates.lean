/-
Which of the candidates of a target decide whether it leads anywhere.

* `isDead`, `firstGuess`: whether there is nothing at a base nor at the base with
  one of the usual extensions, and the path that is looked for first.
* `isBroken_resolve`, `reported_resolve`: these decide about a target. The index file
  of a directory is a candidate only where the directory itself is one already.
-/
import DocLint.Proofs.Link.CandidateList

namespace DocLint.Link

variable {sourceDir projectRoot : Path} {probe : Probe} {target : List Char}

/-- Whether there is nothing at a base and, if it has no extension, nothing at the
base with one of the usual ones either. -/
def isDead (probe : Probe) (b : Path) : Bool :=
  !probe.isThere b &&
    (b.extension?.isSome || guessedExtensions.all fun e => !probe.isThere (b.append e))

/-- The path that is looked for first. -/
def firstGuess (b : Path) : Path :=
  if b.extension?.isNone then b.append (Text.Utf8.encode ".md".toList) else b

lemma isDead_eq_all (probe : Probe) (b : Path) :
    isDead probe b = (variants b).all fun p => !probe.isThere p := by
  rw [isDead, variants]
  cases b.extension? with
  | some e => simp
  | none => simp [Bool.and_comm, Function.comp_def]

lemma exists_variants_eq_cons (b : Path) : ∃ ps, variants b = firstGuess b :: ps := by
  rw [variants, firstGuess]
  split_ifs
  · exact ⟨_, rfl⟩
  · exact ⟨[], rfl⟩

/-- A target that is not rejected is broken exactly if its base is dead. -/
lemma isBroken_resolve (hsource : sourceDir.isAbsolute = true)
    (hproject : projectRoot.isAbsolute = true)
    (hprobe : ∀ p, probe.isDirectory p = true → probe.isThere p = true)
    (h : isRejected target = false) :
    (resolve sourceDir projectRoot probe target).isBroken =
      isDead probe (base sourceDir projectRoot target) := by
  rw [Bool.eq_iff_iff, Resolution.isBroken, resolve, Option.isNone_iff_eq_none,
    List.find?_eq_none, candidates_eq_append hsource hproject h, isDead_eq_all,
    List.all_eq_true]
  simp only [Bool.not_eq_true, Bool.not_eq_true']
  constructor
  · intro hall p hp
    exact hall p (List.mem_append_left _ hp)
  · intro hall p hp
    rcases List.mem_append.mp hp with hp | hp
    · exact hall p hp
    · split_ifs at hp with hdir
      · -- Nothing is at the base, so it is no directory and has no index file.
        have hthere := hprobe _ hdir
        rw [hall _ (mem_variants_self _)] at hthere
        cases hthere
      · cases hp

/-- Of a broken target that is not rejected the first guess is reported. -/
lemma reported_resolve (h : isRejected target = false)
    (hbroken : (resolve sourceDir projectRoot probe target).isBroken = true) :
    (resolve sourceDir projectRoot probe target).reported =
      some (firstGuess (base sourceDir projectRoot target)) := by
  obtain ⟨qs, hqs⟩ := exists_variants_eq_cons (base sourceDir projectRoot target)
  rw [Resolution.isBroken, Option.isNone_iff_eq_none] at hbroken
  rw [Resolution.reported, hbroken, Option.none_or, resolve]
  simp only [candidates_eq_distinct h, hqs, List.cons_append, head?_distinct_cons]

end DocLint.Link
