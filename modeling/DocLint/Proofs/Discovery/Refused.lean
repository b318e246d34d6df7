/-
Why a run is refused.

* `DocRoot.Refused`: the ways for there to be no root to look through;
  `resolve_eq_error_iff` says that these are all.
* `patterns_eq_error_iff`: of several ill-formed patterns the first one is told.
* `Config.Refused`: no root, or else an ill-formed pattern. `Check.run_eq_error_iff`
  and `Check.runAll_eq_error_iff`: these are the failures of every check and of all
  of them together.
* `exists_long_place_of_refused`: a root that is there and cannot be resolved lies
  behind a place whose path is too long.
-/
import DocLint.Proofs.Discovery.Tower
import DocLint.Proofs.FileSystem.LinkFree
import DocLint.Proofs.Report.Pointwise

namespace DocLint

/-- The ways for there to be no root to look through, and what is said of each. -/
inductive DocRoot.Refused (fs : FileSystem) (p : Path) : Failure → Prop
  | empty (h : p.bytes = []) : Refused fs p (.rootUnresolvable p .emptyPath)
  | missing (h : p.bytes ≠ []) (hthere : fs.isThere (absolute fs p) = false) :
      Refused fs p (.rootNotFound (absolute fs p))
  | noDirectory (h : p.bytes ≠ []) (hthere : fs.isThere (absolute fs p) = true)
      (hdir : fs.isDirectory (absolute fs p) = false) :
      Refused fs p (.rootNotADirectory (absolute fs p))
  /-- The directory is there, but a place on the way to it has too long a path. -/
  | tooDeep (h : p.bytes ≠ []) (hdir : fs.isDirectory (absolute fs p) = true)
      (hreal : fs.realPlace (absolute fs p) = .error .nameTooLong) :
      Refused fs p (.rootUnresolvable (absolute fs p) .nameTooLong)

/-- The reasons to refuse a run: there is no root, or else a pattern is ill-formed
and the ones before it are not. -/
inductive Config.Refused (fs : FileSystem) (config : Config) : Failure → Prop
  | root {e : Failure} (h : DocRoot.Refused fs config.root e) : Refused fs config e
  | pattern {before after : List String} {p : String} {e : Glob.Fault}
      (hroot : ∀ e, ¬ DocRoot.Refused fs config.root e)
      (hsplit : config.exclude = before ++ p :: after)
      (hbefore : ∀ q ∈ before, ∃ items, Glob.parse q = .ok items)
      (h : Glob.parse p = .error e) : Refused fs config (.invalidExclude p e)

variable {fs : FileSystem} {config : Config} {p : Path} {e : Failure} {c : Check}

/-! ### Roots -/

namespace FileSystem

/-- A normal path leads to something just if it can be followed. -/
lemma isThere_ofNames_iff {ns : List FileName} :
    fs.isThere (.ofNames ns) = true ↔ ∃ loc, fs.locate (.ofNames ns) = .ok loc := by
  rw [isThere, lookup?]
  cases hloc : fs.locate (.ofNames ns) with
  | error e => simp
  | ok loc =>
      obtain ⟨x, hx⟩ :=
        exists_node?_of_followPath (Path.isAbsolute_ofNames ns) (followPath_of_locate hloc)
      dsimp only
      rw [hx]
      simp

lemma isDirectory_of_locate {loc : Location} (h : fs.locate p = .ok loc) :
    fs.isDirectory p = fs.isDirectoryAt loc := by
  rw [isDirectory, lookup?, h, isDirectoryAt]
  dsimp only
  cases fs.node? loc <;> rfl

end FileSystem

namespace DocRoot

lemma isThere_absolute_iff : fs.isThere (absolute fs p) = true ↔
    ∃ loc, fs.locate (absolute fs p) = .ok loc := by
  obtain ⟨ns, hns⟩ := exists_absolute_eq_ofNames fs p
  rw [hns, FileSystem.isThere_ofNames_iff]

lemma refused_of_resolve (h : resolve fs p = .error e) : Refused fs p e := by
  rw [resolve] at h
  split_ifs at h with hp
  · cases h
    exact .empty hp
  dsimp only at h
  split at h
  · next e' he =>
    cases h
    refine .missing hp (Bool.eq_false_iff.mpr fun hthere => ?_)
    obtain ⟨loc, hloc⟩ := isThere_absolute_iff.mp hthere
    cases he.symm.trans hloc
  · next place hplace =>
    have hdir := FileSystem.isDirectory_of_locate hplace
    split_ifs at h with hat
    · split at h
      · next e' hreal =>
        cases h
        -- The one thing in the way of a place that is there is the length of a path.
        have hor := FileSystem.realPlace_eq_or hplace
        rw [hreal] at hor
        rcases hor with hok | hlong
        · cases hok
        · cases hlong
          exact .tooDeep hp (hdir.trans hat) hreal
      · cases h
    · cases h
      exact .noDirectory hp (isThere_absolute_iff.mpr ⟨place, hplace⟩)
        (hdir.trans (Bool.eq_false_iff.mpr hat))

lemma Refused.resolve_eq (h : Refused fs p e) : resolve fs p = .error e := by
  cases h with
  | empty hp => rw [resolve, if_pos hp]
  | missing hp hthere =>
      cases hloc : fs.locate (absolute fs p) with
      | error e' => simp only [resolve, if_neg hp, hloc]
      | ok loc =>
          rw [isThere_absolute_iff.mpr ⟨loc, hloc⟩] at hthere
          cases hthere
  | noDirectory hp hthere hdir =>
      obtain ⟨loc, hloc⟩ := isThere_absolute_iff.mp hthere
      rw [FileSystem.isDirectory_of_locate hloc] at hdir
      simp only [resolve, if_neg hp, hloc, hdir, if_neg Bool.false_ne_true]
  | tooDeep hp hdir hreal =>
      obtain ⟨loc, hloc⟩ := isThere_absolute_iff.mp (FileSystem.isThere_of_isDirectory hdir)
      rw [FileSystem.isDirectory_of_locate hloc] at hdir
      simp only [resolve, if_neg hp, hloc, hdir, hreal, if_true]

/-- **There is no root** just for one of these reasons. -/
lemma resolve_eq_error_iff : resolve fs p = .error e ↔ Refused fs p e :=
  ⟨refused_of_resolve, Refused.resolve_eq⟩

/-- A root that is there and cannot be resolved lies behind a place whose path is
too long. -/
lemma exists_long_place_of_refused {q : Path}
    (h : Refused fs p (.rootUnresolvable q .nameTooLong)) :
    ∃ l x, fs.node? l = some x ∧ (FileSystem.pathOf l).isShort = false := by
  obtain ⟨ns, hns⟩ := exists_absolute_eq_ofNames fs p
  cases h with
  | tooDeep hp hdir hreal =>
      obtain ⟨loc, hloc⟩ := isThere_absolute_iff.mp (FileSystem.isThere_of_isDirectory hdir)
      rw [hns] at hloc hreal
      exact FileSystem.exists_long_place hloc hreal

end DocRoot

/-! ### Patterns -/

namespace Discovery

lemma exists_of_patterns_error {ps : List String} (h : patterns ps = .error e) :
    ∃ before p after fault, ps = before ++ p :: after ∧
      (∀ q ∈ before, ∃ items, Glob.parse q = .ok items) ∧ Glob.parse p = .error fault ∧
      e = .invalidExclude p fault := by
  induction ps with
  | nil => cases h
  | cons q qs ih =>
      rw [patterns] at h
      split at h
      · next fault hq =>
        cases h
        exact ⟨[], q, qs, fault, rfl, fun _ h => absurd h List.not_mem_nil, hq, rfl⟩
      · next items hq =>
        split at h
        · next e' hqs =>
          cases h
          obtain ⟨before, p, after, fault, rfl, hbefore, hp, he⟩ := ih hqs
          exact ⟨q :: before, p, after, fault, rfl,
            List.forall_mem_cons.mpr ⟨⟨items, hq⟩, hbefore⟩, hp, he⟩
        · cases h

lemma patterns_append_cons {before after : List String} {p : String} {fault : Glob.Fault}
    (hbefore : ∀ q ∈ before, ∃ items, Glob.parse q = .ok items)
    (hp : Glob.parse p = .error fault) :
    patterns (before ++ p :: after) = .error (.invalidExclude p fault) := by
  induction before with
  | nil => rw [List.nil_append, patterns, hp]
  | cons q before ih =>
      obtain ⟨⟨items, hq⟩, hbefore⟩ := List.forall_mem_cons.mp hbefore
      rw [List.cons_append, patterns, hq, ih hbefore]

/-- **The first ill-formed pattern is told.** -/
lemma patterns_eq_error_iff {ps : List String} : patterns ps = .error e ↔
    ∃ before p after fault, ps = before ++ p :: after ∧
      (∀ q ∈ before, ∃ items, Glob.parse q = .ok items) ∧ Glob.parse p = .error fault ∧
      e = .invalidExclude p fault := by
  refine ⟨exists_of_patterns_error, ?_⟩
  rintro ⟨before, p, after, fault, rfl, hbefore, hp, rfl⟩
  exact patterns_append_cons hbefore hp

lemma find_eq_error_iff {root : DocRoot} {selection : Selection} {skipArchive : Bool} :
    find fs root config selection skipArchive = .error e ↔ patterns config.exclude = .error e := by
  rw [find]
  cases patterns config.exclude <;> simp

end Discovery

/-! ### Runs -/

/-- Where there is a root, only a pattern is refused. -/
lemma Config.refused_iff_of_resolve {root : DocRoot}
    (hroot : DocRoot.resolve fs config.root = .ok root) :
    config.Refused fs e ↔ Discovery.patterns config.exclude = .error e := by
  have hnone : ∀ e, ¬ DocRoot.Refused fs config.root e := fun e he => by
    cases hroot.symm.trans he.resolve_eq
  rw [Discovery.patterns_eq_error_iff]
  constructor
  · rintro (h | ⟨-, hsplit, hbefore, h⟩)
    · exact absurd h (hnone e)
    · exact ⟨_, _, _, _, hsplit, hbefore, h, rfl⟩
  · rintro ⟨before, p, after, fault, hsplit, hbefore, h, rfl⟩
    exact .pattern hnone hsplit hbefore h

/-- Where there is no root, that is the one reason. -/
lemma Config.refused_iff_of_resolve_error {e' : Failure}
    (hroot : DocRoot.resolve fs config.root = .error e') : config.Refused fs e ↔ e' = e := by
  have hrefused := DocRoot.resolve_eq_error_iff.mp hroot
  constructor
  · rintro (h | ⟨hnone, -⟩)
    · exact Except.error.inj (hroot.symm.trans h.resolve_eq)
    · exact absurd hrefused (hnone e')
  · rintro rfl
    exact .root hrefused

namespace Check

/-- **A run fails** just if it is refused, whatever the check. -/
lemma run_eq_error_iff : c.run fs config = .error e ↔ config.Refused fs e := by
  rw [run]
  cases hroot : DocRoot.resolve fs config.root with
  | error e' =>
      rw [Config.refused_iff_of_resolve_error hroot]
      dsimp only
      rw [Except.error.injEq]
  | ok root =>
      rw [Config.refused_iff_of_resolve hroot, ← @Discovery.find_eq_error_iff fs config e root
        (c.selection config) (c.leavesArchive config)]
      dsimp only
      cases Discovery.find fs root config (c.selection config) (c.leavesArchive config) <;> simp

lemma exists_of_runEach_error {cs : List Check} (h : runEach fs config cs = .error e) :
    ∃ c ∈ cs, c.run fs config = .error e := by
  induction cs with
  | nil => cases h
  | cons c cs ih =>
      rw [runEach] at h
      split at h
      · next e' hrun =>
        cases h
        exact ⟨c, List.mem_cons_self, hrun⟩
      · split at h
        · next e' hrest =>
          cases h
          obtain ⟨k, hk, hrun⟩ := ih hrest
          exact ⟨k, List.mem_cons_of_mem _ hk, hrun⟩
        · cases h

/-- All checks together fail as each of them does. -/
lemma runAll_eq_error_iff : runAll fs config = .error e ↔ config.Refused fs e := by
  constructor
  · intro h
    obtain ⟨c, -, hrun⟩ := exists_of_runEach_error h
    exact run_eq_error_iff.mp hrun
  · intro h
    rw [runAll, all, runEach, run_eq_error_iff.mpr h]

end Check

lemma isDirectory_shortcut : FileSystem.shortcutTower.isDirectory
    (DocRoot.absolute FileSystem.shortcutTower (FileSystem.shortcut 1)) = true := by
  have habs : DocRoot.absolute FileSystem.shortcutTower (FileSystem.shortcut 1) =
      FileSystem.shortcut 1 := DocRoot.absolute_ofNames _ _
  have hlocate := FileSystem.locate_shortcutTower (Nat.le_refl 1)
  rw [habs, FileSystem.isDirectory_of_locate hlocate, DocRoot.isDirectoryAt_eq_true_iff]
  exact ⟨_, FileSystem.node?_shortcutTower_replicate (Nat.le_refl 1)⟩

/-- Through a link the last directory of the row has a short path, though its own place
has none. -/
lemma DocRoot.refused_shortcut :
    Refused FileSystem.shortcutTower (FileSystem.shortcut 1)
      (.rootUnresolvable (FileSystem.shortcut 1) .nameTooLong) := by
  have habs : DocRoot.absolute FileSystem.shortcutTower (FileSystem.shortcut 1) =
      FileSystem.shortcut 1 := DocRoot.absolute_ofNames _ _
  have hreal := FileSystem.realPlace_shortcutTower (Nat.le_refl 1)
  have hlong : (FileSystem.pathOf (List.replicate 16 (.letters 254))).isShort = false :=
    isShort_letters_sixteen
  rw [if_neg (Bool.eq_false_iff.mp hlong), ← habs] at hreal
  have hne : (FileSystem.shortcut 1).bytes ≠ [] := Path.ofNames_bytes_ne_nil _
  have hrefused := DocRoot.Refused.tooDeep hne isDirectory_shortcut hreal
  rw [habs] at hrefused
  exact hrefused

lemma refused_shortcut :
    ({ root := FileSystem.shortcut 1, exclude := [] } : Config).Refused FileSystem.shortcutTower
      (.rootUnresolvable (FileSystem.shortcut 1) .nameTooLong) :=
  .root DocRoot.refused_shortcut

/-- A root that is there may be refused. -/
theorem Check.run_shortcutTower :
    (FileSystem.shortcut 1).bytes ≠ [] ∧
    FileSystem.shortcutTower.isDirectory
      (DocRoot.absolute FileSystem.shortcutTower (FileSystem.shortcut 1)) = true ∧
    ∀ c : Check, c.run FileSystem.shortcutTower { root := FileSystem.shortcut 1, exclude := [] } =
      .error (.rootUnresolvable (FileSystem.shortcut 1) .nameTooLong) :=
  ⟨Path.ofNames_bytes_ne_nil _, isDirectory_shortcut,
    fun _ => run_eq_error_iff.mpr refused_shortcut⟩

end DocLint
