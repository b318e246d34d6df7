/-
Where the directory is that a path of a root opens.

* `locate_absolute`, `realPlace_absolute`: the normal form of a path that retraces its way leads
  where the path leads, and is resolved wherever the path is.
* `resolve_of_locate`: so **such a path opens the directory where it leads**, unless the length of a
  path is in the way. Two dots are taken off together with the name before them, before any file is
  looked at, so behind a symbolic link they may lead elsewhere.
* `detourTree`: a link after which two dots come back, and one after which they do not;
  `not_opened`: what may go wrong where a path does not retrace its way, or is too long.
-/
import DocLint.Proofs.Discovery.Refused
import DocLint.Proofs.FileSystem.Retraced

namespace DocLint.DocRoot

open FileSystem (pathOf)

variable {fs : FileSystem} {p : Path} {loc : Location}

/-- The normal form of a path that retraces its way leads where the path leads, if it is short. -/
lemma locate_absolute (hloc : fs.locate p = .ok loc) (hback : fs.IsRetraced p) :
    fs.locate (absolute fs p) =
      if (absolute fs p).isShort then .ok loc else .error .nameTooLong := by
  obtain ⟨ms, hms, hfollow⟩ :=
    FileSystem.exists_normal_of_followPath hback (FileSystem.followPath_of_locate hloc)
  have hway := hfollow fun _ _ => rfl
  rw [absolute, hms, FileSystem.locate_ofNames, FileSystem.contains_zero_of_followPath hway,
    if_neg Bool.false_ne_true, hway]

/-- The places that it leads through are among those of the path. -/
lemma realPlace_absolute (hreal : fs.realPlace p = .ok loc) (hback : fs.IsRetraced p)
    (hshort : (absolute fs p).isShort = true) : fs.realPlace (absolute fs p) = .ok loc := by
  have hplaces : fs.followPath (fun loc => (pathOf loc).isShort) p = .ok loc := by
    rw [FileSystem.realPlace] at hreal
    split_ifs at hreal
    exact hreal
  obtain ⟨ms, hms, hfollow⟩ := FileSystem.exists_normal_of_followPath hback hplaces
  rw [absolute, hms] at hshort ⊢
  have hway := hfollow fun l hl => by
    obtain ⟨m, rfl⟩ := hl
    exact Path.isShort_of_append hshort
  rw [FileSystem.realPlace_ofNames, FileSystem.contains_zero_of_followPath hway,
    if_neg Bool.false_ne_true, hway]

/-- Whatever is opened is where the absolute normal form of the path leads. -/
lemma locate_of_resolve {root : DocRoot} (h : resolve fs p = .ok root) :
    fs.locate (absolute fs p) = .ok root.canonical := by
  have hpath : root.path = absolute fs p := by
    rw [resolve] at h
    split_ifs at h
    dsimp only at h
    split at h
    · cases h
    · split_ifs at h
      split at h <;> cases h
      rfl
  rw [← hpath]
  exact (resolve_eq_ok h).locate

/-- The root that the normal form of a path gives, at a place. -/
def opened (fs : FileSystem) (p : Path) (loc : Location) : DocRoot :=
  ⟨absolute fs p, (absolute fs p).parent?.getD (absolute fs p), loc⟩

/-- **Where a root is opened**: let a path lead to a directory, links and all. If it retraces its
way, so that two dots always lead back to where the name before them was looked up, then that
directory is opened, unless a length is in the way: that of the absolute normal form of the path,
under which nothing is found then, or that of the path of a place on the way, so that the path
cannot be resolved. Without links, and without two dots, a path does retrace its way. Whatever is
opened is where the absolute normal form leads. -/
theorem resolve_of_locate (hloc : fs.locate p = .ok loc) (hdir : fs.isDirectoryAt loc = true) :
    (fs.IsRetraced p →
      resolve fs p = .ok (opened fs p loc) ∨
      ((absolute fs p).isShort = false ∧
        resolve fs p = .error (.rootNotFound (absolute fs p))) ∨
      ((absolute fs p).isShort = true ∧ fs.realPlace p = .error .nameTooLong ∧
        resolve fs p = .error (.rootUnresolvable (absolute fs p) .nameTooLong))) ∧
    (fs.IsLinkFree ∨ .up ∉ p.steps → fs.IsRetraced p) ∧
    (∀ root, resolve fs p = .ok root → fs.locate (absolute fs p) = .ok root.canonical) := by
  refine ⟨fun hback => ?_, fun hp => FileSystem.isRetraced_of_locate hp hloc,
    fun _ => locate_of_resolve⟩
  · have hne : p.bytes ≠ [] := by
      intro hempty
      rw [FileSystem.locate, hempty] at hloc
      cases hloc
    have habs := locate_absolute hloc hback
    cases hshort : (absolute fs p).isShort with
    | false =>
        rw [hshort, if_neg Bool.false_ne_true] at habs
        refine Or.inr (Or.inl ⟨rfl, ?_⟩)
        simp only [resolve, if_neg hne, habs]
    | true =>
        rw [hshort, if_pos rfl] at habs
        rcases FileSystem.realPlace_eq_or habs with hok | hlong
        · refine Or.inl ?_
          simp only [resolve, if_neg hne, habs, hdir, hok, if_true, opened]
        · refine Or.inr (Or.inr ⟨rfl, ?_, ?_⟩)
          · refine (FileSystem.realPlace_eq_or hloc).resolve_left fun hreal => ?_
            cases hlong.symm.trans (realPlace_absolute hreal hback hshort)
          · simp only [resolve, if_neg hne, habs, hdir, hlong, if_true]

/-! ### Detours through links -/

/-- A directory with one below it, a link to it and a link to the one below it. -/
def detourTree : FileSystem :=
  ⟨[(.letters 0, .directory [(.letters 1, .directory [])]),
    (.letters 2, .link (.ofRelativeNames [.letters 0])),
    (.letters 3, .link (.ofRelativeNames [.letters 0, .letters 1]))], []⟩

lemma node?_detourTree : detourTree.node? [.letters 0] =
    some (.directory [(.letters 1, .directory [])]) := rfl

variable {fits : Location → Bool} {links : Nat} {ss : List Path.Step}

/-- The first link leads to the directory next to it. -/
lemma follow_detourTree_two (hlink : fits [.letters 2] = true) (hdir : fits [.letters 0] = true) :
    detourTree.follow fits (links + 1) [] (.down (.letters 2) :: ss) =
      detourTree.follow fits links [.letters 0] ss := by
  have hnode : detourTree.node? ([] ++ [.letters 2]) =
      some (.link (.ofRelativeNames [.letters 0])) := rfl
  rw [FileSystem.follow_link hnode, List.nil_append, if_pos hlink, Path.isAbsolute_ofRelativeNames,
    if_neg Bool.false_ne_true, Path.steps_ofRelativeNames (List.cons_ne_nil _ _)]
  show detourTree.follow fits links [] (.down (.letters 0) :: ss) = _
  rw [FileSystem.follow_down node?_detourTree rfl, List.nil_append, if_pos hdir]

/-- The second link leads below it. -/
lemma follow_detourTree_three :
    detourTree.follow (fun _ => true) (links + 1) [] (.down (.letters 3) :: ss) =
      detourTree.follow (fun _ => true) links [.letters 0, .letters 1] ss := by
  have hnode : detourTree.node? ([] ++ [.letters 3]) =
      some (.link (.ofRelativeNames [.letters 0, .letters 1])) := rfl
  have hbelow : detourTree.node? ([.letters 0] ++ [.letters 1]) = some (.directory []) := rfl
  rw [FileSystem.follow_link hnode, if_pos rfl, Path.isAbsolute_ofRelativeNames,
    if_neg Bool.false_ne_true, Path.steps_ofRelativeNames (List.cons_ne_nil _ _)]
  show detourTree.follow _ links [] (.down (.letters 0) :: .down (.letters 1) :: ss) = _
  rw [FileSystem.follow_down node?_detourTree rfl, if_pos rfl, List.nil_append,
    FileSystem.follow_down hbelow rfl, if_pos rfl]
  rfl

/-- The first link and back, and through it once more. -/
def siblingPath : Path := .ofString "ppp/../ppp"

lemma steps_siblingPath :
    siblingPath.isAbsolute = false ∧
      siblingPath.steps = [.down (.letters 2), .up, .down (.letters 2)] := by
  decide +kernel

lemma followPath_siblingPath (hlink : fits [.letters 2] = true) (hdir : fits [.letters 0] = true) :
    detourTree.followPath fits siblingPath = .ok [.letters 0] := by
  obtain ⟨hrelative, hsteps⟩ := steps_siblingPath
  rw [FileSystem.followPath, hrelative, hsteps]
  show detourTree.follow fits (38 + 1 + 1) [] _ = _
  rw [follow_detourTree_two hlink hdir, FileSystem.follow_up node?_detourTree]
  show detourTree.follow fits (38 + 1) [] _ = _
  rw [follow_detourTree_two hlink hdir, FileSystem.follow_nil]

lemma isRetraced_siblingPath : detourTree.IsRetraced siblingPath := by
  obtain ⟨hrelative, hsteps⟩ := steps_siblingPath
  have hnext : detourTree.follow (fun _ => true) FileSystem.maxLinks [] [.down (.letters 2)] =
      .ok [.letters 0] := (follow_detourTree_two rfl rfl).trans FileSystem.follow_nil
  have hup : detourTree.Retraces [[]] [.letters 0] [.up, .down (.letters 2)] :=
    @FileSystem.Retraces.up _ [] [.letters 0] _ (.down hnext .nil)
  rw [FileSystem.IsRetraced, hrelative, hsteps]
  exact .down hnext hup

/-- Two dots behind a link lead back to where it is, if what it leads to is there as well. -/
theorem resolve_of_locate_siblingPath :
    detourTree.locate siblingPath = .ok [.letters 0] ∧
    detourTree.isDirectoryAt [.letters 0] = true ∧
    resolve detourTree siblingPath = .ok (opened detourTree siblingPath [.letters 0]) := by
  have hbytes : ¬ siblingPath.bytes.contains 0 = true ∧ siblingPath.bytes ≠ [] ∧
      siblingPath.isShort = true := by decide +kernel
  obtain ⟨hzero, hne, hshort⟩ := hbytes
  have hlocate : detourTree.locate siblingPath = .ok [.letters 0] := by
    rw [FileSystem.locate, if_neg hzero, if_neg hne, if_pos hshort]
    exact followPath_siblingPath rfl rfl
  have hreal : detourTree.realPlace siblingPath = .ok [.letters 0] := by
    rw [FileSystem.realPlace, if_neg hzero, if_neg hne]
    exact followPath_siblingPath (by decide) (by decide)
  refine ⟨hlocate, rfl, ?_⟩
  obtain hok | ⟨hlong, -⟩ | ⟨-, herror, -⟩ :=
    (resolve_of_locate hlocate rfl).1 isRetraced_siblingPath
  · exact hok
  · exact absurd hlong (by decide +kernel)
  · cases hreal.symm.trans herror

/-- The second link and two dots behind it. -/
def returnPath : Path := .ofString "pppp/.."

lemma locate_returnPath : detourTree.locate returnPath = .ok [.letters 0] := by
  have hbytes : ¬ returnPath.bytes.contains 0 = true ∧ returnPath.bytes ≠ [] ∧
      returnPath.isShort = true ∧ returnPath.isAbsolute = false ∧
      returnPath.steps = [.down (.letters 3), .up] := by decide +kernel
  obtain ⟨hzero, hne, hshort, hrelative, hsteps⟩ := hbytes
  have hbelow : detourTree.node? [.letters 0, .letters 1] = some (.directory []) := rfl
  rw [FileSystem.locate, if_neg hzero, if_neg hne, if_pos hshort, FileSystem.followPath, hrelative,
    hsteps]
  show detourTree.follow _ (39 + 1) [] _ = _
  rw [follow_detourTree_three, FileSystem.follow_up hbelow, FileSystem.follow_nil]
  rfl

/-- Looked at from the names alone, it is the top. -/
lemma resolve_returnPath :
    resolve detourTree returnPath = .ok ⟨.ofNames [], .ofNames [], []⟩ := by
  have habs : absolute detourTree returnPath = .ofNames [] := by decide +kernel
  have hne : returnPath.bytes ≠ [] := by decide +kernel
  have hdir : detourTree.isDirectoryAt [] = true := rfl
  simp only [resolve, if_neg hne, habs, FileSystem.locate_ofNames_nil,
    FileSystem.realPlace_ofNames_nil, hdir, if_true]
  rfl

/-- A row of sixteen directories, seen from the first one. -/
def lowTower : FileSystem :=
  { FileSystem.tower (.letters 254) 16 with workingDirectory := [.letters 254] }

/-- The names of the other ones. -/
def lowPath : Path :=
  .ofRelativeNames (List.replicate 15 (.letters 254))

lemma locate_lowPath :
    lowTower.locate lowPath = .ok (List.replicate 16 (.letters 254)) ∧
      lowTower.isDirectoryAt (List.replicate 16 (.letters 254)) = true := by
  have hnode : lowTower.node? (.letters 254 :: List.replicate 15 (.letters 254)) =
      some (.directory (towerEntries (.letters 254) 0)) :=
    node?_tower (isStorable_letters (by decide)) 16 0
  have hne : List.replicate 15 (FileName.letters 254) ≠ [] := List.cons_ne_nil _ _
  have hbytes : ¬ lowPath.bytes.contains 0 = true ∧ lowPath.bytes ≠ [] ∧
      lowPath.isShort = true := by decide +kernel
  obtain ⟨hzero, hempty, hshort⟩ := hbytes
  refine ⟨?_, isDirectoryAt_eq_true_iff.mpr ⟨_, hnode⟩⟩
  rw [FileSystem.locate, if_neg hzero, if_neg hempty, if_pos hshort, FileSystem.followPath, lowPath,
    Path.isAbsolute_ofRelativeNames, if_neg Bool.false_ne_true, Path.steps_ofRelativeNames hne]
  exact @FileSystem.follow_downs lowTower (fun _ => true) FileSystem.maxLinks [.letters 254] _ _
    (fun _ _ _ => rfl) hne hnode rfl

lemma resolve_lowPath :
    resolve lowTower lowPath = .error (.rootNotFound (absolute lowTower lowPath)) := by
  have hne : List.replicate 15 (FileName.letters 254) ≠ [] := List.cons_ne_nil _ _
  have habs : absolute lowTower lowPath = .ofNames (List.replicate 16 (.letters 254)) := by
    rw [absolute, pathOf, lowPath, Path.join_ofRelativeNames _ hne, Path.normal_ofNames]
    rfl
  have hthere : lowTower.isThere (absolute lowTower lowPath) = false := by
    rw [habs]
    exact FileSystem.isThere_of_isShort_eq_false isShort_letters_sixteen
  have hempty : lowPath.bytes ≠ [] := by decide +kernel
  exact (Refused.missing hempty hthere).resolve_eq

/-- **Directories that are not opened**, though their paths lead to them: two dots behind a link
that does not lead back to where it is; a path that is short only as seen from the working
directory; and a directory that is reached through a link alone. -/
theorem not_opened :
    (detourTree.locate returnPath = .ok [.letters 0] ∧
      detourTree.isDirectoryAt [.letters 0] = true ∧
      ∃ root, resolve detourTree returnPath = .ok root ∧ root.canonical ≠ [.letters 0]) ∧
    (lowTower.locate lowPath = .ok (List.replicate 16 (.letters 254)) ∧
      lowTower.isDirectoryAt (List.replicate 16 (.letters 254)) = true ∧
      resolve lowTower lowPath = .error (.rootNotFound (absolute lowTower lowPath))) ∧
    (FileSystem.shortcutTower.locate (FileSystem.shortcut 1) =
        .ok (List.replicate 16 (.letters 254)) ∧
      FileSystem.shortcutTower.isDirectoryAt (List.replicate 16 (.letters 254)) = true ∧
      resolve FileSystem.shortcutTower (FileSystem.shortcut 1) =
        .error (.rootUnresolvable (FileSystem.shortcut 1) .nameTooLong)) := by
  refine ⟨⟨locate_returnPath, rfl, _, resolve_returnPath, by decide⟩,
    ⟨locate_lowPath.1, locate_lowPath.2, resolve_lowPath⟩,
    ⟨FileSystem.locate_shortcutTower (Nat.le_refl 1), ?_, refused_shortcut.resolve_eq⟩⟩
  have hnode := FileSystem.node?_shortcutTower_replicate (Nat.le_refl 1)
  exact isDirectoryAt_eq_true_iff.mpr ⟨_, hnode⟩

end DocLint.DocRoot
