/-
Links that lead somewhere when they are followed step by step.

* `base_eq_ofNames`: without symbolic links the base of such a target is the path of
  the place where the target leads, although no file is looked at to find it.
* `isDead_ofNames`: where there is something, the base is dead only if its path is
  too long for the system.
* `isBroken_resolve_of_followPath`: so such a target is broken only if its base is too
  long; it never is if the path that it spells is short enough itself.
* `isBroken_resolve_tower`: a target that leads to a directory and is broken.
-/
import DocLint.Proofs.Discovery.Tower
import DocLint.Proofs.FileSystem.LinkFree
import DocLint.Proofs.Link.Broken
import DocLint.Run

namespace DocLint.Link

variable {fs : FileSystem} {sourceDir projectRoot : Path} {target : List Char} {loc : Location}

/-! ### The base of a relative target -/

/-- The path that a relative target spells, as it is written. -/
def spelled (sourceDir : Path) (target : List Char) : Path :=
  sourceDir.join ⟨Text.Utf8.encode (fileOf target)⟩

lemma fileOf_prefix_target (target : List Char) : fileOf target <+: target :=
  (List.takeWhile_prefix _).trans (List.takeWhile_prefix _)

/-- The base of a target without a leading slash is next to the file that holds the
link. -/
lemma base_eq_normal (htrim : Text.trim target = target) (hslash : target.head? ≠ some '/') :
    base sourceDir projectRoot target = (spelled sourceDir target).normal := by
  rw [base, htrim, spelled]
  split
  · next rest hfile =>
    obtain ⟨tail, htail⟩ := fileOf_prefix_target target
    rw [hfile] at htail
    exact absurd (by rw [← htail]; rfl) hslash
  · rfl

/-- Without symbolic links the base is the path of the place where the target leads. -/
lemma base_eq_ofNames (hfree : fs.IsLinkFree) (hsource : sourceDir.isAbsolute = true)
    (htrim : Text.trim target = target) (hslash : target.head? ≠ some '/')
    (h : fs.followPath (fun _ => true) (spelled sourceDir target) = .ok loc) :
    base sourceDir projectRoot target = .ofNames loc := by
  rw [base_eq_normal htrim hslash]
  exact FileSystem.normal_eq_of_followPath hfree (Path.isAbsolute_join hsource) h

lemma isRejected_eq_false (htrim : Text.trim target = target) (hne : target ≠ [])
    (hexternal : isExternal target = false) (hanchor : isAnchor target = false) :
    isRejected target = false := by
  rw [isRejected, htrim, hexternal, hanchor, Bool.or_false, Bool.or_false]
  exact List.isEmpty_eq_false_iff.mpr hne

/-! ### Paths that are too long -/

/-- Bytes at its end make a path no shorter. -/
lemma isShort_append_eq_false {p : Path} (h : p.isShort = false) (bs : List UInt8) :
    (p.append bs).isShort = false := by
  rw [Path.isShort, decide_eq_false_iff_not] at h ⊢
  have hlen : (p.append bs).bytes.length = p.bytes.length + bs.length := List.length_append
  omega

/-- Where there is something, the base is dead only if it is too long. -/
lemma isDead_ofNames {x : Node} (h : fs.node? loc = some x) (hx : x.isLink = false) :
    isDead fs.probe (.ofNames loc) = !(Path.ofNames loc).isShort := by
  have hthere : fs.probe.isThere (.ofNames loc) = (Path.ofNames loc).isShort :=
    FileSystem.isThere_ofNames h hx
  rw [isDead, hthere]
  cases hshort : (Path.ofNames loc).isShort with
  | true => rfl
  | false =>
      -- The variants of the base are even longer.
      have hvariants : (guessedExtensions.all fun e =>
          !fs.probe.isThere ((Path.ofNames loc).append e)) = true := by
        refine List.all_eq_true.mpr fun e _ => ?_
        have hnone : fs.probe.isThere ((Path.ofNames loc).append e) = false :=
          FileSystem.isThere_of_isShort_eq_false (isShort_append_eq_false hshort e)
        rw [hnone]
        rfl
      rw [hvariants, Bool.or_true]
      rfl

/-- A target that leads somewhere is broken exactly if its base is too long. -/
lemma isBroken_resolve_eq_not_isShort (hfree : fs.IsLinkFree)
    (hsource : sourceDir.isAbsolute = true) (hproject : projectRoot.isAbsolute = true)
    (htrim : Text.trim target = target) (hne : target ≠ [])
    (hexternal : isExternal target = false) (hanchor : isAnchor target = false)
    (hslash : target.head? ≠ some '/')
    (h : fs.followPath (fun _ => true) (spelled sourceDir target) = .ok loc) :
    (resolve sourceDir projectRoot fs.probe target).isBroken = !(Path.ofNames loc).isShort := by
  have hrejected := isRejected_eq_false htrim hne hexternal hanchor
  have hprobe : ∀ p, fs.probe.isDirectory p = true → fs.probe.isThere p = true :=
    fun p hp => FileSystem.isThere_of_isDirectory hp
  obtain ⟨x, hx⟩ := FileSystem.exists_node?_of_followPath (Path.isAbsolute_join hsource) h
  rw [isBroken_resolve hsource hproject hprobe hrejected,
    base_eq_ofNames hfree hsource htrim hslash h, isDead_ofNames hx (hfree loc x hx)]

/-- **Lexical resolution is right without symbolic links**: where the path that a
relative target spells leads somewhere step by step, its base leads to the same place,
and the target is broken exactly if its base is too long for the system to look for;
so it is not if the path that it spells is short enough. -/
theorem isBroken_resolve_of_followPath (hfree : fs.IsLinkFree)
    (hsource : sourceDir.isAbsolute = true) (hproject : projectRoot.isAbsolute = true)
    (htrim : Text.trim target = target) (hne : target ≠ [])
    (hexternal : isExternal target = false) (hanchor : isAnchor target = false)
    (hslash : target.head? ≠ some '/')
    (h : fs.followPath (fun _ => true) (spelled sourceDir target) = .ok loc) :
    fs.followPath (fun _ => true) (base sourceDir projectRoot target) = .ok loc ∧
      ((base sourceDir projectRoot target).isShort = true →
        fs.locate (base sourceDir projectRoot target) = .ok loc) ∧
      (resolve sourceDir projectRoot fs.probe target).isBroken =
        !(base sourceDir projectRoot target).isShort ∧
      ((spelled sourceDir target).isShort = true →
        (resolve sourceDir projectRoot fs.probe target).isBroken = false) := by
  have habs : (spelled sourceDir target).isAbsolute = true := Path.isAbsolute_join hsource
  obtain ⟨x, hx⟩ := FileSystem.exists_node?_of_followPath habs h
  have hlink := hfree loc x hx
  have hbase := @base_eq_ofNames fs sourceDir projectRoot target loc hfree hsource htrim hslash h
  have hbroken := isBroken_resolve_eq_not_isShort hfree hsource hproject htrim hne hexternal
    hanchor hslash h
  have hlength : (Path.ofNames loc).bytes.length ≤ (spelled sourceDir target).bytes.length := by
    have hle := Path.length_normal_le habs
    rwa [FileSystem.normal_eq_of_followPath hfree habs h] at hle
  rw [hbase]
  refine ⟨FileSystem.followPath_ofNames_of_node? hx hlink, ?_, hbroken, ?_⟩
  · intro hshort
    exact (FileSystem.locate_ofNames_of_node? hx hlink hshort).1
  · intro hshort
    rw [Path.isShort, decide_eq_true_eq] at hshort
    have hbaseShort : (Path.ofNames loc).isShort = true := by
      rw [Path.isShort, decide_eq_true_eq]
      omega
    rw [hbroken, hbaseShort]
    rfl

/-! ### Rows of directories -/

lemma isLinkFree_tower (n : FileName) (k : Nat) : (FileSystem.tower n k).IsLinkFree := by
  intro loc x hx
  have hdir := isDirectory_of_node?_tower hx
  cases x with
  | directory es => rfl
  | _ => cases hdir

/-- From a directory into another one, back, and into it again. -/
theorem isBroken_resolve_of_followPath_tower :
    (FileSystem.tower (.letters 0) 2).followPath (fun _ => true)
        (spelled (.ofNames [.letters 0]) "p/../p/.#a".toList) = .ok [.letters 0, .letters 0] ∧
      (resolve (.ofNames [.letters 0]) (.ofNames []) (FileSystem.tower (.letters 0) 2).probe
        "p/../p/.#a".toList).isBroken = false := by
  have hn : (FileName.letters 0).isStorable = true := by decide
  have htop : (FileSystem.tower (.letters 0) 2).node? [] =
      some (.directory (towerEntries (.letters 0) 2)) := node?_tower hn 0 2
  have hone : (FileSystem.tower (.letters 0) 2).node? [.letters 0] =
      some (.directory (towerEntries (.letters 0) 1)) := node?_tower hn 1 1
  have htwo : (FileSystem.tower (.letters 0) 2).node? [.letters 0, .letters 0] =
      some (.directory (towerEntries (.letters 0) 0)) := node?_tower hn 2 0
  have hsteps : (spelled (.ofNames [.letters 0]) "p/../p/.#a".toList).steps =
      [.stay, .down (.letters 0), .down (.letters 0), .up, .down (.letters 0), .stay] := by
    decide +kernel
  have hfollow : (FileSystem.tower (.letters 0) 2).followPath (fun _ => true)
      (spelled (.ofNames [.letters 0]) "p/../p/.#a".toList) = .ok [.letters 0, .letters 0] := by
    rw [FileSystem.followPath, if_pos (by decide +kernel), hsteps, FileSystem.follow_stay htop,
      FileSystem.follow_down hone rfl, if_pos rfl, FileSystem.follow_down htwo rfl, if_pos rfl]
    show FileSystem.follow _ _ _ [.letters 0, .letters 0] _ = _
    rw [FileSystem.follow_up htwo]
    show FileSystem.follow _ _ _ [.letters 0] _ = _
    rw [FileSystem.follow_down htwo rfl, if_pos rfl]
    exact (FileSystem.follow_stay htwo []).trans FileSystem.follow_nil
  obtain ⟨-, -, -, hbroken⟩ := @isBroken_resolve_of_followPath (.tower (.letters 0) 2)
    (.ofNames [.letters 0]) (.ofNames []) "p/../p/.#a".toList _ (isLinkFree_tower _ _)
    (by decide) (by decide) (by decide +kernel) (by decide) (by decide +kernel)
    (by decide +kernel) (by decide) hfollow
  exact ⟨hfollow, hbroken (by decide +kernel)⟩

/-- The deepest directory in a row of sixteen that has a path short enough. -/
def fifteenth : Path :=
  .ofNames (List.replicate 15 (.letters 254))

/-- The longest name as a target. -/
def longTarget : List Char :=
  List.replicate 255 'p'

/-- A target may lead to a directory and be broken: the path of the directory that holds
the link is short enough, that of the directory below it is not. -/
theorem isBroken_resolve_tower :
    (FileSystem.tower (.letters 254) 16).IsLinkFree ∧
      fifteenth.isAbsolute = true ∧ fifteenth.normal = fifteenth ∧
      (FileSystem.tower (.letters 254) 16).isDirectory fifteenth = true ∧
      (Path.ofNames []).isAbsolute = true ∧
      Text.trim longTarget = longTarget ∧ longTarget ≠ [] ∧ isExternal longTarget = false ∧
      isAnchor longTarget = false ∧ longTarget.head? ≠ some '/' ∧
      (FileSystem.tower (.letters 254) 16).followPath (fun _ => true)
        (spelled fifteenth longTarget) = .ok (List.replicate 16 (.letters 254)) ∧
      (resolve fifteenth (.ofNames []) (FileSystem.tower (.letters 254) 16).probe
        longTarget).isBroken = true := by
  rw [fifteenth, longTarget]
  have hn : (FileName.letters 254).isStorable = true := isStorable_letters (by decide)
  have hfree := isLinkFree_tower (.letters 254) 16
  have habs := Path.isAbsolute_ofNames (List.replicate 15 (.letters 254))
  have hsource := node?_tower hn 15 1
  have hbelow := node?_tower hn 16 0
  have hdirectory : (FileSystem.tower (.letters 254) 16).isDirectory
      (.ofNames (List.replicate 15 (.letters 254))) = true := by
    have hlocate := (FileSystem.locate_ofNames_of_node? hsource rfl isShort_letters_fifteen).1
    rw [FileSystem.isDirectory, FileSystem.lookup?, hlocate]
    dsimp only
    rw [hsource]
    rfl
  have hname : Text.Utf8.encode (fileOf (List.replicate 255 'p')) =
      (FileName.letters 254).bytes := by decide +kernel
  have hspelled : spelled (.ofNames (List.replicate 15 (.letters 254))) (List.replicate 255 'p') =
      .ofNames (List.replicate 16 (.letters 254)) := by
    rw [spelled, hname, Path.join_ofNames (by simp), ← List.replicate_succ']
  have htrim : Text.trim (List.replicate 255 'p') = List.replicate 255 'p' := by decide +kernel
  have hne : List.replicate 255 'p' ≠ [] :=
    List.ne_nil_of_length_pos (by rw [List.length_replicate]; decide)
  have hexternal : isExternal (List.replicate 255 'p') = false := by decide +kernel
  have hanchor : isAnchor (List.replicate 255 'p') = false := by decide
  have hfollow : (FileSystem.tower (.letters 254) 16).followPath (fun _ => true)
      (spelled (.ofNames (List.replicate 15 (.letters 254))) (List.replicate 255 'p')) =
        .ok (List.replicate 16 (.letters 254)) := by
    rw [hspelled]
    exact FileSystem.followPath_ofNames_of_node? hbelow rfl
  have hbroken := @isBroken_resolve_eq_not_isShort _ _ (.ofNames []) _ _ hfree habs
    (Path.isAbsolute_ofNames []) htrim hne hexternal hanchor (by decide) hfollow
  rw [isShort_letters_sixteen] at hbroken
  exact ⟨hfree, habs, Path.normal_ofNames _, hdirectory, Path.isAbsolute_ofNames [], htrim,
    hne, hexternal, hanchor, by decide, hfollow, hbroken⟩

end DocLint.Link
