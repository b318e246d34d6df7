/-
What is found where links are followed.

* `find_eq_of_lt`: a walk ends by itself; greatest depths that no open directory
  reaches make no difference.
* `mem_of_reachesFile`: every file that is reached is found, or is an error because
  it lies outside the root, or is one because the path of a place on the way to it
  is too long.
* `IsContained`: what is found stays below the root, and what is in the way is an
  error just once.
* `find_isContained`: all of this of every walk.
-/
import DocLint.Proofs.Discovery.Tower

namespace DocLint.Discovery

variable {fs : FileSystem} {root : DocRoot} {c : Config} {selection : Selection}
  {skipArchive : Bool} {ps : List (List Glob.Item)} {d : Discovery}

/-! ### Walks end -/

/-- Greatest depths that no open directory reaches make no difference. -/
lemma find_eq_of_lt {bound m m' : Nat}
    (hbound : ∀ rules start place d ds, fs.Opens rules start place d ds →
      d.trail.length ≤ bound) (hm : bound < m) (hm' : bound < m') :
    find fs root { c with maxDepth := m } selection skipArchive =
      find fs root { c with maxDepth := m' } selection skipArchive := by
  have hvisits : fs.visits (rules { c with maxDepth := m } skipArchive) root.path root.canonical =
      fs.visits (rules { c with maxDepth := m' } skipArchive) root.path root.canonical :=
    @FileSystem.visits_eq_of_lt fs (rules c skipArchive) root.path root.canonical bound m m'
      hbound hm hm'
  rw [find, find, hvisits]

/-! ### Files that are reached -/

/-- A file that is reached is found, or is an error for one of two reasons, and not
both. -/
lemma mem_of_reachesFile (hroot : root.IsResolved fs) (hps : patterns c.exclude = .ok ps)
    (h : find fs root c selection skipArchive = .ok d) {dir : OpenDirectory}
    {ds : List OpenDirectory} {n : FileName} {place : Location}
    (hreach : ReachesFile fs root c selection skipArchive ps dir ds n place) :
    (fs.realPlace (root.path.along (dir.trail ++ [n])) = .ok place ∧
      root.canonical <+: place ∧ sourceFile root (dir.trail ++ [n]) ∈ d.files ∧
      .ofRelativeNames (dir.trail ++ [n]) ∉ d.errors.map (·.1)) ∨
    (fs.realPlace (root.path.along (dir.trail ++ [n])) = .ok place ∧
      ¬ root.canonical <+: place ∧ sourceFile root (dir.trail ++ [n]) ∉ d.files ∧
      (.ofRelativeNames (dir.trail ++ [n]), .unreadable (outsideMessage place)) ∈ d.errors) ∨
    (fs.realPlace (root.path.along (dir.trail ++ [n])) = .error .nameTooLong ∧
      sourceFile root (dir.trail ++ [n]) ∉ d.files ∧
      (.ofRelativeNames (dir.trail ++ [n]), .unreadable (readMessage .nameTooLong))
        ∈ d.errors) := by
  have hapart : ∀ e ∈ d.errors, e.1 = .ofRelativeNames (dir.trail ++ [n]) →
      sourceFile root (dir.trail ++ [n]) ∉ d.files := fun e he hp hf =>
    key_ne_of_mem h he hf (by rw [hp]; rfl)
  obtain ⟨content, hx⟩ := hreach.isFile
  rcases realPlace_entry hroot hreach.reaches hreach.leads hx rfl with hplace | hplace
  · by_cases hbelow : root.canonical <+: place
    · have hfile : sourceFile root (dir.trail ++ [n]) ∈ d.files :=
        (mem_files_iff hps h).mpr ⟨dir, ds, n, place, place, hreach, hplace, hbelow, rfl⟩
      refine Or.inl ⟨hplace, hbelow, hfile, fun hmem => ?_⟩
      obtain ⟨e, he, hp⟩ := List.mem_map.mp hmem
      exact hapart e he hp hfile
    · have herror := (mem_errors_iff hps h).mpr
        ⟨_, _, .outside hreach hplace hbelow, rfl, rfl⟩
      exact Or.inr (Or.inl ⟨hplace, hbelow, hapart _ herror rfl, herror⟩)
  · have herror := (mem_errors_iff hps h).mpr ⟨_, _, .file hreach hplace, rfl, rfl⟩
    exact Or.inr (Or.inr ⟨hplace, hapart _ herror rfl, herror⟩)

/-- A file that is found is a regular file at a place below the root. -/
lemma exists_place_of_mem_files (hroot : root.IsResolved fs) (hps : patterns c.exclude = .ok ps)
    (h : find fs root c selection skipArchive = .ok d) {f : SourceFile} (hf : f ∈ d.files) :
    ∃ place content, fs.realPlace f.path = .ok place ∧
      fs.node? place = some (.file content) ∧ root.canonical <+: place := by
  obtain ⟨dir, ds, n, entry, place, hreach, hplace, hbelow, rfl⟩ := (mem_files_iff hps h).mp hf
  obtain ⟨content, hx⟩ := hreach.isFile
  have heq : place = entry := by
    rcases realPlace_entry hroot hreach.reaches hreach.leads hx rfl with hentry | hentry
    · exact Except.ok.inj (hplace.symm.trans hentry)
    · cases hplace.symm.trans hentry
  exact ⟨place, content, hplace, heq ▸ hx, hbelow⟩

/-! ### What is found -/

/-- Whether a discovery stays below its root and tells of everything in the way. -/
structure IsContained (fs : FileSystem) (root : DocRoot) (c : Config) (selection : Selection)
    (skipArchive : Bool) (ps : List (List Glob.Item)) (d : Discovery) : Prop where
  /-- What is found is resolved to a regular file below the root. -/
  file_below : ∀ f ∈ d.files, ∃ place content, fs.realPlace f.path = .ok place ∧
    fs.node? place = some (.file content) ∧ root.canonical <+: place
  /-- A file that is reached is found, or lies outside the root and is an error, or
  cannot be resolved for the length of a path and is an error. -/
  file_or_error : ∀ dir ds n place,
    ReachesFile fs root c selection skipArchive ps dir ds n place →
    (fs.realPlace (root.path.along (dir.trail ++ [n])) = .ok place ∧
      root.canonical <+: place ∧ sourceFile root (dir.trail ++ [n]) ∈ d.files ∧
      .ofRelativeNames (dir.trail ++ [n]) ∉ d.errors.map (·.1)) ∨
    (fs.realPlace (root.path.along (dir.trail ++ [n])) = .ok place ∧
      ¬ root.canonical <+: place ∧ sourceFile root (dir.trail ++ [n]) ∉ d.files ∧
      (.ofRelativeNames (dir.trail ++ [n]), .unreadable (outsideMessage place)) ∈ d.errors) ∨
    (fs.realPlace (root.path.along (dir.trail ++ [n])) = .error .nameTooLong ∧
      sourceFile root (dir.trail ++ [n]) ∉ d.files ∧
      (.ofRelativeNames (dir.trail ++ [n]), .unreadable (readMessage .nameTooLong)) ∈ d.errors)
  /-- What is in the way is an error, and the only one about its path. -/
  error_of_obstacle : ∀ t m, Obstacle fs root c selection skipArchive ps t m →
    (.ofRelativeNames t, .unreadable m) ∈ d.errors ∧
      (d.errors.map (·.1)).count (.ofRelativeNames t) = 1
  /-- There are no other errors. -/
  obstacle_of_error : ∀ x ∈ d.errors, ∃ t m,
    Obstacle fs root c selection skipArchive ps t m ∧ x = (.ofRelativeNames t, .unreadable m)
  /-- Only a path that is too long keeps an open directory from being read. -/
  unread : ∀ dir ds e, fs.Reads (rules c skipArchive) root.path root.canonical dir ds →
    fs.locate (root.path.along dir.trail) = .error e →
    e = .nameTooLong ∧ (root.path.along dir.trail).isShort = false

/-- What is found below a resolved root is contained in it. -/
lemma isContained (hroot : root.IsResolved fs) (hps : patterns c.exclude = .ok ps)
    (h : find fs root c selection skipArchive = .ok d) :
    IsContained fs root c selection skipArchive ps d where
  file_below _ hf := exists_place_of_mem_files hroot hps h hf
  file_or_error _ _ _ _ hreach := mem_of_reachesFile hroot hps h hreach
  error_of_obstacle t m ht := by
    have herror := (mem_errors_iff hps h).mpr ⟨t, m, ht, rfl, rfl⟩
    exact ⟨herror, count_errors h herror⟩
  obstacle_of_error x hx := by
    obtain ⟨t, m, ht, hp, hv⟩ := (mem_errors_iff hps h).mp hx
    exact ⟨t, m, ht, Prod.ext hp hv⟩
  unread dir ds e hreads he := by
    rw [locate_of_opens hroot hreads.opens] at he
    split_ifs at he with hshort
    cases he
    exact ⟨rfl, Bool.eq_false_iff.mpr hshort⟩

/-- **Links are followed safely**: however they lead about, the walk ends by itself,
what is found lies below the root, and all that is in the way is an error, once. -/
theorem find_isContained {p : Path} (hroot : DocRoot.resolve fs p = .ok root)
    (hps : patterns c.exclude = .ok ps) :
    (∃ bound, (∀ dir ds, fs.Opens (rules c skipArchive) root.path root.canonical dir ds →
        dir.trail.length ≤ bound) ∧
      ∀ m m', bound < m → bound < m' →
        find fs root { c with maxDepth := m } selection skipArchive =
          find fs root { c with maxDepth := m' } selection skipArchive) ∧
    ∃ d, find fs root c selection skipArchive = .ok d ∧
      IsContained fs root c selection skipArchive ps d := by
  have hresolved := DocRoot.resolve_eq_ok hroot
  obtain ⟨bound, hbound⟩ := fs.exists_trail_length_le
  obtain ⟨d, h⟩ := exists_find_eq_ok fs root selection skipArchive hps
  refine ⟨⟨bound, ?_, ?_⟩, d, h, isContained hresolved hps h⟩
  · intro dir ds hopens
    exact hbound _ _ _ _ _ hopens
  · intro m m' hm hm'
    exact find_eq_of_lt hbound hm hm'

/-- A root with a link in it that leads to the root itself. -/
def loopTree : FileSystem :=
  ⟨[(.letters 0, .directory [(.letters 1, .link ⟨[dot]⟩)])], []⟩

/-- The root of that tree. -/
def loopRoot : DocRoot :=
  ⟨.ofNames [.letters 0], .ofNames [], [.letters 0]⟩

/-- The link is in the way once, as a loop. -/
theorem find_isContained_loopTree : ∃ d,
    DocRoot.resolve loopTree (.ofNames [.letters 0]) = .ok loopRoot ∧
    find loopTree loopRoot { followLinks := true } .all false = .ok d ∧
    (.ofRelativeNames [.letters 1], .unreadable (traversalMessage
      (.loop (loopRoot.path.along [.letters 1]) (loopRoot.path.along [])))) ∈ d.errors ∧
    (d.errors.map (·.1)).count (.ofRelativeNames [.letters 1]) = 1 := by
  have hdir : loopTree.node? loopRoot.canonical =
      some (.directory [(.letters 1, .link ⟨[dot]⟩)]) := rfl
  obtain ⟨hlocate, hreal⟩ := FileSystem.locate_ofNames_of_node? hdir rfl (by decide)
  have hroot : DocRoot.resolve loopTree (.ofNames [.letters 0]) = .ok loopRoot :=
    DocRoot.resolve_ofNames hlocate hreal hdir
  obtain ⟨-, d, hfind, hd⟩ := @find_isContained loopTree loopRoot { followLinks := true } .all
    false [] _ hroot rfl
  have hstarts : loopTree.starts (rules { followLinks := true } false) loopRoot.path = true := by
    decide
  have hlisted : .letters 1 ∈ loopTree.names loopRoot.canonical := by decide
  have hlink : loopTree.isLinkAt (loopRoot.canonical ++ [.letters 1]) = true := by decide
  have hloop : loopTree.locate (loopRoot.path.along [.letters 1]) = .ok loopRoot.canonical := by
    have hpath : loopRoot.path.along [.letters 1] = .ofNames [.letters 0, .letters 1] :=
      Path.along_ofNames _ _
    rw [hpath, FileSystem.locate_ofNames, if_neg (by decide), if_pos (by decide),
      FileSystem.followPath_ofNames, List.map_cons, FileSystem.follow_down hdir rfl, if_pos rfl,
      List.map_singleton, FileSystem.maxLinks, FileSystem.follow_link rfl, if_pos rfl,
      if_neg (by decide), List.append_nil]
    exact (FileSystem.follow_stay hdir []).trans FileSystem.follow_nil
  have hobstacle := @Obstacle.loop loopTree loopRoot { followLinks := true } .all false []
    ⟨loopRoot.canonical, []⟩ _ [] _ _ ⟨⟨hstarts, .root, Nat.zero_lt_succ 63⟩, ⟨_, hlocate⟩, hlisted⟩
    rfl hlink hloop ⟨_, hdir⟩ rfl
  obtain ⟨herror, hcount⟩ := hd.error_of_obstacle _ _ hobstacle
  exact ⟨d, hroot, hfind, herror, hcount⟩

/-- A walk that follows links may meet another error than a file outside the root
or a link: here there is neither any file nor any link, and a path too long. -/
theorem exists_error_followed : ∃ root d,
    DocRoot.resolve (.tower (.letters 254) 16) (.ofNames (List.replicate 15 (.letters 254))) =
      .ok root ∧
    (∀ loc x, (FileSystem.tower (.letters 254) 16).node? loc = some x → x.isDirectory = true) ∧
    find (.tower (.letters 254) 16) root { followLinks := true } .all false = .ok d ∧
    d.errors ≠ [] := by
  obtain ⟨hroot, -, d, hfind, herrors⟩ :=
    exists_errors_letters { followLinks := true } .all (by decide) rfl
  exact ⟨_, d, hroot, fun loc x => isDirectory_of_node?_tower, hfind, herrors⟩

end DocLint.Discovery
