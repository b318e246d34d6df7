/-
Reports do not depend on where the root is.

* `results_of_sameBelow`: below two roots that hold the same, every check but the one
  of links finds the same of each file.
* `run_of_sameBelow`: so it reports the same, in whatever places the roots are and in
  whatever way they are reached, as long as both are entered and no path below them
  is too long.
* `disagrees_of_sameBelow`: a root of a name that is never entered, and a root that
  is too far down, are reported otherwise.
-/
import DocLint.Proofs.Discovery.Refused
import DocLint.Proofs.Discovery.Relocated
import DocLint.Proofs.Report.Frame

namespace DocLint

open Discovery

variable {fs fs' : FileSystem} {root root' : DocRoot} {config : Config} {c : Check}
  {selection : Selection} {skipArchive : Bool} {ps : List (List Glob.Item)} {p : Path}
  {d d' : Discovery} {n m : FileName} {t : List FileName} {x : Node}

/-! ### Looking at files -/

namespace Check

/-- Only links are looked up around a file. -/
lemma scan_eq_of_ne (hc : c ≠ .links) {f f' : SourceFile} (content : String) :
    c.scan fs root config f content = c.scan fs' root' { config with root := p } f' content := by
  cases c with
  | links => exact absurd rfl hc
  | _ => rfl

/-- A wanted file is judged the same below both roots. -/
lemma inspect_of_sameBelow (hc : c ≠ .links) (hroot : root.IsResolved fs)
    (hroot' : root'.IsResolved fs') (hfits : FitsBelow fs root) (hfits' : FitsBelow fs' root')
    (hsame : fs.SameBelow fs' root.canonical root'.canonical)
    (h : IsWanted fs root config selection skipArchive ps t) :
    c.inspect fs root config (sourceFile root t) =
      c.inspect fs' root' { config with root := p } (sourceFile root' t) := by
  by_cases hnames : c = .filenames
  · subst hnames
    rfl
  · have hwanted' : IsWanted fs' root' { config with root := p } selection skipArchive ps t :=
      h.of_sameBelow hsame
    obtain ⟨content, hx, hread⟩ := h.read_eq hroot hfits
    obtain ⟨content', hx', hread'⟩ := hwanted'.read_eq hroot' hfits'
    cases (hsame.eq_file hx).symm.trans hx'
    rw [inspect_of_ne hnames, inspect_of_ne hnames, readBounded, readBounded, hread, hread']
    dsimp only
    cases boundedText config.maxFileSize content with
    | error v => rfl
    | ok s => exact congrArg Except.ok (scan_eq_of_ne hc s)

/-- Reports are made of the errors and of what is found of each file. -/
lemma reportOn_eq_of_results {config' : Config} (herrors : d.errors = d'.errors)
    (hresults : (d.files.map fun f => (f.relative, c.inspect fs root config f)) =
      d'.files.map fun f => (f.relative, c.inspect fs' root' config' f)) :
    c.reportOn fs root config d = c.reportOn fs' root' config' d' := by
  rw [reportOn, reportOn, hresults, herrors]

/-! ### Reports below both roots -/

/-- What is found of the files, told by the names that are wanted. -/
lemma mem_results_iff {config' : Config} (hfiles : ∀ f, f ∈ d.files ↔
      ∃ t, IsWanted fs root config selection skipArchive ps t ∧ f = sourceFile root t)
    (x : Path × Except Violation (List Violation)) :
    x ∈ (d.files.map fun f => (f.relative, c.inspect fs root config' f)) ↔
      ∃ t, IsWanted fs root config selection skipArchive ps t ∧
        x = (.ofRelativeNames t, c.inspect fs root config' (sourceFile root t)) := by
  rw [List.mem_map]
  constructor
  · rintro ⟨f, hf, rfl⟩
    obtain ⟨t, ht, rfl⟩ := (hfiles f).mp hf
    exact ⟨t, ht, rfl⟩
  · rintro ⟨t, ht, rfl⟩
    exact ⟨_, (hfiles _).mpr ⟨t, ht, rfl⟩, rfl⟩

lemma pairwise_results {g : SourceFile → Except Violation (List Violation)}
    (h : find fs root config selection skipArchive = .ok d) :
    (d.files.map fun f => (f.relative, g f)).Pairwise fun a b => a.1.key < b.1.key :=
  List.pairwise_map.mpr (pairwise_files h)

/-- Below roots that hold the same, as much is found of the same files. -/
lemma results_of_sameBelow (hc : c ≠ .links) (hroot : root.IsResolved fs)
    (hroot' : root'.IsResolved fs') (hfits : FitsBelow fs root) (hfits' : FitsBelow fs' root')
    (hsame : fs.SameBelow fs' root.canonical root'.canonical)
    (hfind : find fs root config selection skipArchive = .ok d)
    (hfind' : find fs' root' { config with root := p } selection skipArchive = .ok d')
    (hfiles : ∀ f, f ∈ d.files ↔
      ∃ t, IsWanted fs root config selection skipArchive ps t ∧ f = sourceFile root t)
    (hfiles' : ∀ f, f ∈ d'.files ↔ ∃ t,
      IsWanted fs' root' { config with root := p } selection skipArchive ps t ∧
        f = sourceFile root' t) :
    (d.files.map fun f => (f.relative, c.inspect fs root config f)) =
      d'.files.map fun f => (f.relative, c.inspect fs' root' { config with root := p } f) := by
  refine @eq_of_pairwise_of_mem_iff _ (fun a b => a.1.key < b.1.key)
    (fun _ => List.lt_irrefl _) (fun _ _ _ => List.lt_trans) _ _ (pairwise_results hfind)
    (pairwise_results hfind') fun x => ?_
  rw [mem_results_iff hfiles, mem_results_iff hfiles']
  constructor
  · rintro ⟨t, ht, rfl⟩
    rw [inspect_of_sameBelow hc hroot hroot' hfits hfits' hsame ht]
    exact ⟨t, ht.of_sameBelow hsame, rfl⟩
  · rintro ⟨t, ht, rfl⟩
    have hback := ht.of_sameBelow (p := config.root) hsame.symm
    have ht' : IsWanted fs root config selection skipArchive ps t := hback
    rw [← inspect_of_sameBelow hc hroot hroot' hfits hfits' hsame ht']
    exact ⟨t, ht', rfl⟩

/-- **Reports do not depend on where the root is**: two roots that hold the same, in
whatever places and in whatever way they are reached, get the same report of every
check but the one of links, as long as no links are followed, both are entered, and
nothing below them has too long a path. -/
theorem run_of_sameBelow (hc : c ≠ .links) (hfollow : config.followLinks = false)
    (hroot : DocRoot.resolve fs config.root = .ok root)
    (hroot' : DocRoot.resolve fs' p = .ok root')
    (hsame : fs.SameBelow fs' root.canonical root'.canonical) (henter : root.IsEntered fs)
    (henter' : root'.IsEntered fs') (hfits : FitsBelow fs root) (hfits' : FitsBelow fs' root') :
    c.run fs config = c.run fs' { config with root := p } := by
  have hresolved := DocRoot.resolve_eq_ok hroot
  have hresolved' := DocRoot.resolve_eq_ok hroot'
  have hp : DocRoot.resolve fs' ({ config with root := p } : Config).root = .ok root' := hroot'
  cases hps : patterns config.exclude with
  | error e =>
      have hps' : patterns ({ config with root := p } : Config).exclude = .error e := hps
      rw [run_eq_error_iff.mpr ((Config.refused_iff_of_resolve hroot).mpr hps),
        run_eq_error_iff.mpr ((Config.refused_iff_of_resolve hp).mpr hps')]
  | ok ps =>
      obtain ⟨d, hfind⟩ :=
        exists_find_eq_ok fs root (c.selection config) (c.leavesArchive config) hps
      obtain ⟨d', hfind'⟩ := @exists_find_eq_ok { config with root := p } ps fs' root'
        (c.selection config) (c.leavesArchive config) hps
      obtain ⟨herrors, hfiles⟩ := files_of_fitsBelow hresolved henter hfollow hfits hps hfind
      obtain ⟨herrors', hfiles'⟩ := @files_of_fitsBelow fs' root' { config with root := p } _ _ ps d'
        hresolved' henter' hfollow hfits' hps hfind'
      have hreport := reportOn_eq_of_results (herrors.trans herrors'.symm)
        (results_of_sameBelow hc hresolved hresolved' hfits hfits' hsame hfind hfind' hfiles hfiles')
      have hselection : c.selection { config with root := p } = c.selection config := by
        cases c <;> rfl
      rw [← hselection] at hfind'
      rw [run_eq_ok_iff.mpr ⟨root, d, hroot, hfind, rfl⟩,
        run_eq_ok_iff.mpr ⟨root', d', hp, hfind', rfl⟩, hreport]

end Check

/-! ### Roots that are reported otherwise -/

/-- Whether a check finds something wrong below the one root and nothing below the
other, though both hold the same. -/
def Check.Disagrees (c : Check) (fs : FileSystem) (p p' : Path) : Prop :=
  ∃ root root' r r', DocRoot.resolve fs p = .ok root ∧ DocRoot.resolve fs p' = .ok root' ∧
    fs.SameBelow fs root.canonical root'.canonical ∧
    c.run fs { root := p } = .ok r ∧ c.run fs { root := p' } = .ok r' ∧
    r.ok = false ∧ r'.ok = true

/-- The name `node_modules`. -/
def modulesName : FileName :=
  ⟨[0x6E, 0x6F, 0x64, 0x65, 0x5F, 0x6D, 0x6F, 0x64, 0x75, 0x6C, 0x65, 0x73], by decide⟩

/-- The name `a.yml`, which breaks the policy for names. -/
def shortYamlName : FileName := ⟨[0x61, 0x2E, 0x79, 0x6D, 0x6C], by decide⟩

/-- A directory with one file. -/
def twinEntries : List (FileName × Node) := [(shortYamlName, .file .empty)]

/-- Directories that hold the same. -/
def twinTree : FileSystem :=
  ⟨[(.letters 0, .directory twinEntries), (.letters 1, .directory twinEntries),
    (modulesName, .directory twinEntries)], []⟩

/-- One of them, as a root. -/
def twinRoot (n : FileName) : DocRoot :=
  ⟨.ofNames [n], (Path.ofNames [n]).parent?.getD (.ofNames [n]), [n]⟩

/-- The names of these directories. -/
def twinNames : List FileName := [.letters 0, .letters 1, modulesName]

lemma node?_twinTree (hn : n ∈ twinNames) :
    twinTree.node? [n] = some (.directory twinEntries) := by
  rw [twinNames, List.mem_cons, List.mem_cons, List.mem_singleton] at hn
  rcases hn with rfl | rfl | rfl <;> rfl

lemma resolve_twinTree (hn : n ∈ twinNames) :
    DocRoot.resolve twinTree (.ofNames [n]) = .ok (twinRoot n) := by
  have hshort : (Path.ofNames [n]).isShort = true := by
    rw [twinNames, List.mem_cons, List.mem_cons, List.mem_singleton] at hn
    rcases hn with rfl | rfl | rfl <;> decide
  obtain ⟨hlocate, hreal⟩ := FileSystem.locate_ofNames_of_node? (node?_twinTree hn) rfl hshort
  exact DocRoot.resolve_ofNames hlocate hreal (node?_twinTree hn)

lemma node?_twinTree_append (hn : n ∈ twinNames) (t : List FileName) :
    twinTree.node? ([n] ++ t) = (Node.directory twinEntries).descend? t := by
  rw [FileSystem.node?_append, node?_twinTree hn, Option.bind_some]

lemma sameBelow_twinTree (hn : n ∈ twinNames) (hm : m ∈ twinNames) :
    twinTree.SameBelow twinTree [n] [m] :=
  ⟨fun t => by rw [node?_twinTree_append hn, node?_twinTree_append hm]⟩

/-- There is the directory and its file. -/
lemma eq_of_descend?_twinEntries (h : (Node.directory twinEntries).descend? t = some x) :
    t = [] ∨ t = [shortYamlName] := by
  cases t with
  | nil => exact Or.inl rfl
  | cons m t =>
      obtain ⟨y, hy, hx⟩ := Option.bind_eq_some_iff.mp h
      obtain ⟨e, he, rfl⟩ := Option.map_eq_some_iff.mp hy
      have hm : e.1 = m := by simpa using List.find?_some he
      obtain rfl := List.mem_singleton.mp (List.mem_filter.mp (List.mem_of_find?_eq_some he)).1
      subst hm
      cases t with
      | nil => exact Or.inr rfl
      | cons k t => cases hx

lemma fitsBelow_twinTree (hn : n ∈ twinNames) : FitsBelow twinTree (twinRoot n) := by
  intro t x hx
  rw [twinRoot, node?_twinTree_append hn] at hx
  have halong : (twinRoot n).path.along t = .ofNames ([n] ++ t) := Path.along_ofNames [n] t
  have hshort : (Path.ofNames ([n] ++ t)).isShort = true := by
    rw [twinNames, List.mem_cons, List.mem_cons, List.mem_singleton] at hn
    rcases eq_of_descend?_twinEntries hx with rfl | rfl <;> rcases hn with rfl | rfl | rfl <;>
      decide
  exact ⟨by rw [halong]; exact hshort, hshort⟩

lemma isEntered_twinRoot (hn : skippedDirectories.any n.isWritten = false) :
    (twinRoot n).IsEntered twinTree := by
  refine Or.inr fun m hm => ?_
  rw [twinRoot, ← List.nil_append [n], Path.fileName?_ofNames_concat] at hm
  cases hm
  exact hn

/-- Two of the directories get the same report of the check of names. -/
theorem Check.run_of_sameBelow_twinTree :
    filenames.run twinTree { root := .ofNames [.letters 0] } =
      filenames.run twinTree { root := .ofNames [.letters 1] } :=
  @run_of_sameBelow twinTree twinTree (twinRoot (.letters 0)) (twinRoot (.letters 1))
    { root := .ofNames [.letters 0] } filenames (.ofNames [.letters 1]) (by decide) rfl
    (resolve_twinTree (by decide)) (resolve_twinTree (by decide))
    (sameBelow_twinTree (by decide) (by decide)) (isEntered_twinRoot (by decide))
    (isEntered_twinRoot (by decide)) (fitsBelow_twinTree (by decide))
    (fitsBelow_twinTree (by decide))

/-! ### A name that is never entered -/

/-- A report on something is not clean. -/
lemma ok_reportOn_eq_false (h : find fs root config selection skipArchive = .ok d)
    {e : Path × List Violation}
    (he : e ∈ (c.reportOn fs root config d).findings.entries) :
    (c.reportOn fs root config d).ok = false := by
  rw [Bool.eq_false_iff, Ne, (Report.isPointwise_reportOn h).ok_iff]
  exact List.ne_nil_of_mem he

lemma ok_reportOn_of_eq_nil (hfiles : d.files = []) (herrors : d.errors = []) :
    (c.reportOn fs root config d).ok = true := by
  rw [Check.reportOn, hfiles, herrors]
  rfl

lemma isWanted_twin (hdepth : 1 ≤ config.maxDepth) :
    IsWanted twinTree (twinRoot (.letters 0)) config .all false [] [shortYamlName] where
  isFile := ⟨_, rfl⟩
  inDirectories _ := FileSystem.exists_directory_of_prefix (x := .file .empty) rfl
  depth := hdepth
  notSkipped := by decide
  notArchived h := nomatch h
  selected := by decide
  kept := by decide

/-- A root of a name that is never entered has nothing below it. -/
lemma starts_modules : twinTree.starts (rules { root := .ofNames [modulesName] } false)
    (twinRoot modulesName).path = false := by
  have hname : (Path.ofNames [modulesName]).fileName? = some modulesName :=
    Path.fileName?_ofNames_concat [] modulesName
  have hparent : (Path.ofNames [modulesName]).parent? = some (.ofNames []) := by decide
  have hlink : twinTree.isLink (.ofNames [modulesName]) = false := by
    rw [FileSystem.isLink_eq twinTree hparent hname, FileSystem.locate_ofNames_nil]
    rfl
  rw [twinRoot, FileSystem.starts, hlink, hname]
  decide

lemma disagrees_twinTree :
    Check.filenames.Disagrees twinTree (.ofNames [.letters 0]) (.ofNames [modulesName]) := by
  have hps : patterns ({ root := .ofNames [.letters 0] } : Config).exclude = .ok [] := rfl
  obtain ⟨d, hfind⟩ := exists_find_eq_ok twinTree (twinRoot (.letters 0)) .all false hps
  obtain ⟨d', hfind'⟩ := @exists_find_eq_ok { root := .ofNames [modulesName] } [] twinTree
    (twinRoot modulesName) .all false rfl
  have hroot := @resolve_twinTree (.letters 0) (by decide)
  have hroot' := @resolve_twinTree modulesName (by decide)
  refine ⟨_, _, _, _, hroot, hroot', sameBelow_twinTree (by decide) (by decide),
    Check.run_eq_ok_iff.mpr ⟨_, d, hroot, hfind, rfl⟩,
    Check.run_eq_ok_iff.mpr ⟨_, d', hroot', hfind', rfl⟩, ?_, ?_⟩
  · obtain ⟨-, hfiles⟩ := files_of_fitsBelow (DocRoot.resolve_eq_ok hroot)
      (isEntered_twinRoot (by decide)) rfl (fitsBelow_twinTree (by decide)) hps hfind
    have hfile := (hfiles _).mpr ⟨_, isWanted_twin (by decide), rfl⟩
    refine ok_reportOn_eq_false hfind ((Report.mem_entries_reportOn hfind).mpr
      (Or.inr ⟨_, hfile, ?_, rfl⟩))
    decide
  · obtain ⟨ps, -, rfl⟩ := find_eq_ok_iff.mp hfind'
    have hvisits : twinTree.visits (rules { root := .ofNames [modulesName] } false)
        (twinRoot modulesName).path (twinRoot modulesName).canonical = [] := by
      obtain ⟨kind, -, h⟩ := exists_visits_eq twinTree
        (rules { root := .ofNames [modulesName] } false) (twinRoot modulesName).path
        (twinRoot modulesName).canonical
      rw [h, starts_modules, if_neg Bool.false_ne_true]
    have hverdicts : verdicts twinTree (twinRoot modulesName) { root := .ofNames [modulesName] } .all
        false ps = [] := by rw [verdicts, hvisits, List.map_nil]
    rw [hverdicts]
    exact ok_reportOn_of_eq_nil rfl rfl

/-! ### A root too far down -/

/-- What is below the fifteenth directory: itself, and one more directory. -/
lemma exists_replicate_of_shortcutTower
    (h : FileSystem.shortcutTower.node? (List.replicate 15 (.letters 254) ++ t) = some x) :
    x.isDirectory = true ∧ ∃ j ≤ 1, t = List.replicate j (.letters 254) := by
  have hnode := FileSystem.node?_shortcutTower_replicate (Nat.zero_le 1)
  rw [Nat.add_zero] at hnode
  rw [FileSystem.node?_append, hnode, Option.bind_some] at h
  exact ⟨isDirectory_of_descend?_tower h, exists_replicate_of_descend?_tower h⟩

/-- The fifteenth directory, through the link. -/
def shortcutRoot : DocRoot :=
  ⟨FileSystem.shortcut 0, (FileSystem.shortcut 0).parent?.getD (FileSystem.shortcut 0),
    List.replicate 15 (.letters 254)⟩

lemma resolve_shortcut :
    DocRoot.resolve FileSystem.shortcutTower (FileSystem.shortcut 0) = .ok shortcutRoot := by
  have hnode := FileSystem.node?_shortcutTower_replicate (Nat.zero_le 1)
  have hlocate := FileSystem.locate_shortcutTower (Nat.zero_le 1)
  have hreal := FileSystem.realPlace_shortcutTower (Nat.zero_le 1)
  have hshort : (FileSystem.pathOf (List.replicate 15 (.letters 254))).isShort = true :=
    isShort_letters_fifteen
  rw [Nat.add_zero] at hnode hlocate
  rw [Nat.add_zero, if_pos hshort] at hreal
  exact DocRoot.resolve_ofNames hlocate hreal hnode

lemma resolve_fifteenth : DocRoot.resolve FileSystem.shortcutTower
    (.ofNames (List.replicate 15 (.letters 254))) = .ok (towerRoot (.letters 254) 15) := by
  have hnode := FileSystem.node?_shortcutTower_replicate (Nat.zero_le 1)
  obtain ⟨hlocate, hreal⟩ :=
    FileSystem.locate_ofNames_of_node? hnode rfl isShort_letters_fifteen
  exact DocRoot.resolve_ofNames hlocate hreal hnode

lemma isOutOfReach_tower (hdepth : 1 < config.maxDepth) :
    IsOutOfReach FileSystem.shortcutTower (towerRoot (.letters 254) 15) config false
      [.letters 254] where
  isDirectory := by
    have hnode := FileSystem.node?_shortcutTower_replicate (Nat.le_refl 1)
    rw [List.replicate_succ'] at hnode
    exact ⟨_, hnode⟩
  depth := hdepth
  notSkipped := by decide
  notArchived h := nomatch h
  readable := by
    rw [towerRoot, Path.along_ofNames]
    exact isShort_letters_fifteen
  tooLong := by
    rw [towerRoot, Path.along_ofNames, ← List.replicate_succ']
    exact isShort_letters_sixteen

/-- Through the link, everything has a short path. -/
lemma isShort_along_shortcutRoot {j : Nat} (hj : j ≤ 1) :
    (shortcutRoot.path.along (List.replicate j (.letters 254))).isShort = true := by
  have halong : shortcutRoot.path.along (List.replicate j (.letters 254)) =
      FileSystem.shortcut j := Path.along_ofNames [.letters 0] _
  rw [halong]
  exact (FileSystem.shortcut_isShort hj).2

lemma disagrees_shortcutTower : Check.filenames.Disagrees FileSystem.shortcutTower
    (.ofNames (List.replicate 15 (.letters 254))) (FileSystem.shortcut 0) := by
  have hps : patterns ({} : Config).exclude = .ok [] := rfl
  have hresolved := DocRoot.resolve_eq_ok resolve_fifteenth
  have hresolved' := DocRoot.resolve_eq_ok resolve_shortcut
  have hstarts : FileSystem.shortcutTower.starts
      (rules { root := .ofNames (List.replicate 15 (.letters 254)) } false)
      (towerRoot (.letters 254) 15).path = true := by
    refine starts_of_name fun n hn => ?_
    obtain rfl := eq_of_fileName?_towerRoot hn
    decide
  have hstarts' : FileSystem.shortcutTower.starts (rules { root := FileSystem.shortcut 0 } false)
      shortcutRoot.path = true := by
    refine starts_of_name fun n hn => ?_
    obtain rfl : FileName.letters 0 = n :=
      Option.some.inj ((Path.fileName?_ofNames_concat [] (.letters 0)).symm.trans hn)
    decide
  obtain ⟨d, hfind⟩ := @exists_find_eq_ok { root := .ofNames (List.replicate 15 (.letters 254)) } []
    FileSystem.shortcutTower (towerRoot (.letters 254) 15) .all false hps
  obtain ⟨d', hfind'⟩ := @exists_find_eq_ok { root := FileSystem.shortcut 0 } []
    FileSystem.shortcutTower shortcutRoot .all false hps
  refine ⟨_, _, _, _, resolve_fifteenth, resolve_shortcut, ⟨fun _ => rfl⟩,
    Check.run_eq_ok_iff.mpr ⟨_, d, resolve_fifteenth, hfind, rfl⟩,
    Check.run_eq_ok_iff.mpr ⟨_, d', resolve_shortcut, hfind', rfl⟩, ?_, ?_⟩
  · have herror := (mem_errors_unfollowed hresolved rfl hstarts hps hfind).mpr
      (Or.inl ⟨_, isOutOfReach_tower (by decide), rfl⟩)
    exact ok_reportOn_eq_false hfind ((Report.mem_entries_reportOn hfind).mpr
      (Or.inl ⟨_, herror, rfl⟩))
  · refine ok_reportOn_of_eq_nil ?_ ?_
    · refine List.eq_nil_iff_forall_not_mem.mpr fun f hf => ?_
      obtain ⟨t, hwanted, -⟩ := (mem_files_unfollowed hresolved' rfl hstarts' hps hfind').mp hf
      obtain ⟨content, hcontent⟩ := hwanted.isFile
      cases (exists_replicate_of_shortcutTower hcontent).1
    · refine List.eq_nil_iff_forall_not_mem.mpr fun x hx => ?_
      rcases (mem_errors_unfollowed hresolved' rfl hstarts' hps hfind').mp hx with
        ⟨t, ht, -⟩ | ⟨t, hwanted, -⟩
      · obtain ⟨es, hes⟩ := ht.isDirectory
        obtain ⟨-, j, hj, rfl⟩ := exists_replicate_of_shortcutTower hes
        cases (isShort_along_shortcutRoot hj).symm.trans ht.tooLong
      · obtain ⟨content, hcontent⟩ := hwanted.isFile
        cases (exists_replicate_of_shortcutTower hcontent).1

/-- Two roots that hold the same may be reported differently: one has a name that is
never entered, and one is so far down that what is below it has too long a path. -/
theorem Check.disagrees_of_sameBelow :
    filenames.Disagrees twinTree (.ofNames [.letters 0]) (.ofNames [modulesName]) ∧
    filenames.Disagrees FileSystem.shortcutTower (.ofNames (List.replicate 15 (.letters 254)))
      (FileSystem.shortcut 0) :=
  ⟨disagrees_twinTree, disagrees_shortcutTower⟩

end DocLint
