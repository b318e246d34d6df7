/-
One file, spelled from the project and from next to the page.

* `FileName.IsSpellable`: names that can be written into a target; `namesText`: such names
  with slashes between them, `encode_namesText`: as bytes they are a relative path.
* `rooted`, `climbing`: the target that spells names from the project root, and the one
  that goes some steps up from next to the page first.
* `base_rooted`, `base_climbing`: the bases of the two.
* `resolve_rooted_eq_resolve_climbing`: two such targets for one path resolve alike.
-/
import DocLint.Proofs.Link.Resolved
import DocLint.Proofs.Path.Equivalence
import DocLint.Proofs.Text.Utf8

namespace DocLint

/-! ### Names in a target -/

/-- Whether a name can be written into a target: it is the text of characters, and holds
neither of the marks that end the path in a target. -/
def FileName.IsSpellable (n : FileName) : Prop :=
  n.bytes = Text.Utf8.encode n.text ∧ '#' ∉ n.text ∧ '?' ∉ n.text

instance (n : FileName) : Decidable n.IsSpellable :=
  inferInstanceAs (Decidable (_ ∧ _))

lemma Text.Utf8.encode_glue (ps : List (List Char)) :
    encode (glue '/' ps) = glue slash (ps.map encode) := by
  induction ps with
  | nil => rfl
  | cons p ps ih =>
      cases ps with
      | nil => rfl
      | cons q qs =>
          have hslash : encode ('/' :: glue '/' (q :: qs)) = slash :: encode (glue '/' (q :: qs)) :=
            encode_cons '/' _
          rw [glue, encode_append, hslash, ih]
          · rfl
          · exact List.cons_ne_nil q qs

namespace Path

variable {p q : Path}

/-- A path that is absolute and in normal form has the components of its names. -/
lemma same_ofNames_names (habs : p.isAbsolute = true) (h : p.normal.Same p) :
    p.Same (.ofNames p.names) := by
  obtain ⟨ns, hns⟩ := exists_normal_eq_ofNames habs
  have hsame : p.components = (ofNames ns).components := by
    rw [← hns]
    exact h.symm
  have hnames : p.names = ns := by
    rw [names, hsame, components_ofNames, List.filterMap_cons_none rfl, List.filterMap_map]
    exact List.filterMap_some
  rw [hnames]
  exact hsame

lemma foldl_components_of_same_ofNames {ns : List FileName} (h : p.Same (.ofNames ns)) :
    p.components.foldl collapse [] = stack ns := by
  rw [h, components_ofNames, List.foldl_cons]
  exact foldl_collapse_stack [] ns

end Path

namespace Link

variable {sourceDir projectRoot path : Path} {probe : Probe} {target target' : List Char}
  {k : ℕ} {ns : List FileName}

/-- Names with slashes between them, as characters. -/
def namesText (ns : List FileName) : List Char :=
  Text.glue '/' (ns.map FileName.text)

/-- As bytes such names are a relative path. -/
lemma encode_namesText (h : ∀ n ∈ ns, n.IsSpellable) :
    Text.Utf8.encode (namesText ns) = (Path.ofRelativeNames ns).bytes := by
  rw [namesText, Text.Utf8.encode_glue, List.map_map, Path.bytes_ofRelativeNames]
  exact congrArg _ (List.map_congr_left fun n hn => (h n hn).1.symm)

lemma notMem_namesText {c : Char} (hc : c ≠ '/') (h : ∀ n ∈ ns, c ∉ n.text) :
    c ∉ namesText ns := by
  intro hmem
  obtain hslash | ⟨s, hs, hcs⟩ := Text.mem_glue hmem
  · exact hc hslash
  · obtain ⟨n, hn, rfl⟩ := List.mem_map.mp hs
    exact h n hn hcs

/-- No name starts with a slash. -/
lemma head?_namesText_ne (h : ∀ n ∈ ns, n.IsSpellable) : (namesText ns).head? ≠ some '/' := by
  intro hhead
  obtain ⟨s, hs⟩ := List.head?_eq_some_iff.mp hhead
  have habs : (Path.ofRelativeNames ns).isAbsolute = true := by
    rw [Path.isAbsolute, ← encode_namesText h, hs, Text.Utf8.encode_cons]
    rfl
  rw [Path.isAbsolute_ofRelativeNames] at habs
  cases habs

/-- A target without a mark is all path. -/
lemma fileOf_eq_self (hfragment : '#' ∉ target) (hquery : '?' ∉ target) :
    fileOf target = target := by
  have hkeep : ∀ {c : Char}, c ∉ target → target.takeWhile (· ≠ c) = target := fun hc =>
    List.takeWhile_eq_self_iff.mpr fun d hd => decide_eq_true fun heq => hc (heq ▸ hd)
  rw [fileOf, hkeep hfragment, hkeep hquery]

/-- Targets that are not rejected resolve alike if they have the same base. -/
lemma resolve_congr (h : isRejected target = false) (h' : isRejected target' = false)
    (hbase : base sourceDir projectRoot target = base sourceDir projectRoot target') :
    resolve sourceDir projectRoot probe target = resolve sourceDir projectRoot probe target' := by
  rw [resolve, resolve, candidates_eq_distinct h, candidates_eq_distinct h', hbase]

/-! ### From the project root -/

/-- The target that spells names from the project root. -/
def rooted (ns : List FileName) : List Char :=
  '/' :: namesText ns

lemma notMem_rooted {c : Char} (hc : c ≠ '/') (h : ∀ n ∈ ns, c ∉ n.text) : c ∉ rooted ns := by
  rw [rooted, List.mem_cons, not_or]
  exact ⟨hc, notMem_namesText hc h⟩

/-- No scheme starts with a slash, and a slash has no other case. -/
lemma isExternal_cons_slash {s : List Char} (htrim : Text.trim ('/' :: s) = '/' :: s) :
    isExternal ('/' :: s) = false := by
  have hchar : Text.lowercaseChar '/' = ['/'] := by decide
  have hlower : ∃ t, Text.lowercase ('/' :: s) = '/' :: t := by
    rw [Text.lowercase, Text.lowercaseAfter, if_neg (by decide), hchar]
    exact ⟨_, rfl⟩
  obtain ⟨t, ht⟩ := hlower
  rw [isExternal, htrim, ht]
  rfl

lemma isRejected_rooted (htrim : Text.trim (rooted ns) = rooted ns) :
    isRejected (rooted ns) = false := by
  refine isRejected_eq_false htrim (List.cons_ne_nil _ _) (isExternal_cons_slash htrim) ?_
  rw [isAnchor, htrim]
  rfl

/-- **From the project root** names lead to what they name below it. -/
lemma base_rooted (hspell : ∀ n ∈ ns, n.IsSpellable) (htrim : Text.trim (rooted ns) = rooted ns) :
    base sourceDir projectRoot (rooted ns) = (projectRoot.join (.ofRelativeNames ns)).normal := by
  have hfile : fileOf (Text.trim (rooted ns)) = '/' :: namesText ns := by
    rw [htrim, fileOf_eq_self (notMem_rooted (by decide) fun n hn => (hspell n hn).2.1)
      (notMem_rooted (by decide) fun n hn => (hspell n hn).2.2), rooted]
  have hdrop : (namesText ns).dropWhile (· = '/') = namesText ns := by
    have hhead := head?_namesText_ne hspell
    cases hs : namesText ns with
    | nil => rfl
    | cons c cs =>
        rw [hs, List.head?_cons, ne_eq, Option.some.injEq] at hhead
        rw [List.dropWhile_cons_of_neg (by simpa using hhead)]
  rw [base, hfile]
  simp only [hdrop, encode_namesText hspell]

lemma base_rooted_eq_ofNames {loc : Location} (hspell : ∀ n ∈ ns, n.IsSpellable)
    (htrim : Text.trim (rooted ns) = rooted ns) (hproject : projectRoot.Same (.ofNames loc)) :
    base sourceDir projectRoot (rooted ns) = .ofNames (loc ++ ns) := by
  rw [base_rooted hspell htrim]
  refine Path.normal_of_foldl_eq_stack ?_
  rw [Path.foldl_components_join _ (Path.isAbsolute_ofRelativeNames ns),
    Path.foldl_components_of_same_ofNames hproject, Path.components_ofRelativeNames,
    Path.foldl_collapse_stack]

/-! ### From next to the page -/

/-- The target that goes a number of steps up and then along names. -/
def climbing (k : ℕ) (ns : List FileName) : List Char :=
  (List.replicate k "../".toList).flatten ++ namesText ns

lemma climbing_succ (k : ℕ) (ns : List FileName) :
    climbing (k + 1) ns = '.' :: '.' :: '/' :: climbing k ns := by
  rw [climbing, List.replicate_succ, List.flatten_cons, List.append_assoc]
  rfl

lemma notMem_climbing {c : Char} (hdot : c ≠ '.') (hslash : c ≠ '/') (h : ∀ n ∈ ns, c ∉ n.text)
    (k : ℕ) : c ∉ climbing k ns := by
  induction k with
  | zero => exact notMem_namesText hslash h
  | succ k ih =>
      rw [climbing_succ]
      simp [hdot, hslash, ih]

lemma head?_climbing_ne (h : ∀ n ∈ ns, n.IsSpellable) (k : ℕ) :
    (climbing k ns).head? ≠ some '/' := by
  cases k with
  | zero => exact head?_namesText_ne h
  | succ k =>
      rw [climbing_succ, List.head?_cons]
      decide

/-- The relative path that such a target spells. -/
def climbingPath (k : ℕ) (ns : List FileName) : Path :=
  ⟨Text.Utf8.encode (climbing k ns)⟩

lemma isAbsolute_climbingPath (h : ∀ n ∈ ns, n.IsSpellable) (k : ℕ) :
    (climbingPath k ns).isAbsolute = false := by
  cases k with
  | zero =>
      have hpath : climbingPath 0 ns = .ofRelativeNames ns :=
        congrArg Path.mk (encode_namesText h)
      rw [hpath, Path.isAbsolute_ofRelativeNames]
  | succ k =>
      rw [climbingPath, climbing_succ]
      rfl

/-- Going up is two dots each time, and then come the names. -/
lemma foldl_climbingPath (h : ∀ n ∈ ns, n.IsSpellable) (k : ℕ) (out : List Component) :
    (climbingPath k ns).components.foldl Path.collapse out =
      (List.replicate k Component.parent ++ ns.map Component.name).foldl Path.collapse out := by
  induction k generalizing out with
  | zero =>
      have hpath : climbingPath 0 ns = .ofRelativeNames ns :=
        congrArg Path.mk (encode_namesText h)
      rw [hpath, Path.components_ofRelativeNames, List.replicate_zero, List.nil_append]
  | succ k ih =>
      have hpieces : (climbingPath (k + 1) ns).pieces = [dot, dot] :: (climbingPath k ns).pieces := by
        rw [climbingPath, climbing_succ]
        exact Text.pieces_append_cons (p := [dot, dot]) (by decide) _
      rw [Path.foldl_components_of_relative (isAbsolute_climbingPath h (k + 1)), hpieces,
        List.filterMap_cons_some (show Component.ofPiece? [dot, dot] = some .parent from rfl),
        List.foldl_cons, ← Path.foldl_components_of_relative (isAbsolute_climbingPath h k), ih,
        List.replicate_succ, List.cons_append, List.foldl_cons]

/-- **From next to the page** the steps up lead to a directory above, and the names to what
they name below that. -/
lemma base_climbing {loc : Location} (hspell : ∀ n ∈ ns, n.IsSpellable)
    (htrim : Text.trim (climbing k ns) = climbing k ns) (hsource : sourceDir.Same (.ofNames loc)) :
    base sourceDir projectRoot (climbing k ns) =
      .ofNames (loc.take (loc.length - k) ++ ns) := by
  have hfile : fileOf (climbing k ns) = climbing k ns :=
    fileOf_eq_self (notMem_climbing (by decide) (by decide) (fun n hn => (hspell n hn).2.1) k)
      (notMem_climbing (by decide) (by decide) (fun n hn => (hspell n hn).2.2) k)
  rw [base_eq_normal htrim (head?_climbing_ne hspell k), spelled, hfile]
  refine Path.normal_of_foldl_eq_stack ?_
  rw [← climbingPath, Path.foldl_components_join _ (isAbsolute_climbingPath hspell k),
    foldl_climbingPath hspell, Path.foldl_components_of_same_ofNames hsource, List.foldl_append,
    Path.foldl_collapse_parents, Path.foldl_collapse_stack]

lemma isRejected_climbing (hspell : ∀ n ∈ ns, n.IsSpellable) (hne : climbing k ns ≠ [])
    (htrim : Text.trim (climbing k ns) = climbing k ns)
    (hexternal : isExternal (climbing k ns) = false) : isRejected (climbing k ns) = false := by
  refine isRejected_eq_false htrim hne hexternal ?_
  rw [isAnchor, htrim, beq_eq_false_iff_ne]
  intro hhead
  exact notMem_climbing (by decide) (by decide) (fun n hn => (hspell n hn).2.1) k
    (List.mem_of_mem_head? hhead)

/-! ### One path, two targets -/

/-- **A file may be spelled either way**: the target that spells a path from the project
root and one that goes up from next to the page to a directory above both and then down to
the path resolve alike, whatever files there are, and the path is the base of both. -/
theorem resolve_rooted_eq_resolve_climbing (sourceDir projectRoot path : Path)
    (ms ns : List FileName) (k : ℕ) (probe : Probe)
    (hsource : sourceDir.isAbsolute = true ∧ sourceDir.normal.Same sourceDir)
    (hproject : projectRoot.isAbsolute = true ∧ projectRoot.normal.Same projectRoot)
    (hpath : path.isAbsolute = true ∧ path.normal.Same path)
    (hbelow : path.names = projectRoot.names ++ ms)
    (habove : path.names = sourceDir.names.take (sourceDir.names.length - k) ++ ns)
    (hspell : ∀ n ∈ ms ++ ns, n.IsSpellable)
    (hrooted : Text.trim (rooted ms) = rooted ms)
    (hclimbing : Text.trim (climbing k ns) = climbing k ns) (hne : climbing k ns ≠ [])
    (hexternal : isExternal (climbing k ns) = false) :
    resolve sourceDir projectRoot probe (rooted ms) =
        resolve sourceDir projectRoot probe (climbing k ns) ∧
      base sourceDir projectRoot (rooted ms) = path.normal ∧
      base sourceDir projectRoot (climbing k ns) = path.normal ∧
      path.normal ∈ (resolve sourceDir projectRoot probe (rooted ms)).candidates := by
  have hms : ∀ n ∈ ms, n.IsSpellable := fun n hn => hspell n (List.mem_append_left _ hn)
  have hns : ∀ n ∈ ns, n.IsSpellable := fun n hn => hspell n (List.mem_append_right _ hn)
  have hnormal : path.normal = .ofNames path.names :=
    Path.normal_of_foldl_eq_stack
      (Path.foldl_components_of_same_ofNames (Path.same_ofNames_names hpath.1 hpath.2))
  have hbase : base sourceDir projectRoot (rooted ms) = path.normal := by
    rw [base_rooted_eq_ofNames hms hrooted (Path.same_ofNames_names hproject.1 hproject.2),
      hnormal, hbelow]
  have hbase' : base sourceDir projectRoot (climbing k ns) = path.normal := by
    rw [base_climbing hns hclimbing (Path.same_ofNames_names hsource.1 hsource.2), hnormal,
      habove]
  have hrejected := isRejected_rooted hrooted
  -- Neither target is rejected, so all that is asked of a target is its base.
  refine ⟨?_, hbase, hbase', ?_⟩
  · exact resolve_congr hrejected (isRejected_climbing hns hne hclimbing hexternal)
      (hbase.trans hbase'.symm)
  · rw [resolve, candidates_eq_append hsource.1 hproject.1 hrejected, hbase]
    exact List.mem_append_left _ (mem_variants_self _)

/-- A page next to the directory of a file: one step up, or from the project root. -/
theorem resolve_rooted_eq_resolve_climbing_sibling :
    let page := Path.ofString "/repo/docs/guide"
    let project := Path.ofString "/repo"
    let probe : Probe := ⟨fun p => p = .ofString "/repo/docs/api/été 1.md", fun _ => false⟩
    resolve page project probe "/docs/api/été 1".toList =
        resolve page project probe "../api/été 1".toList ∧
      base page project "../api/été 1".toList = .ofString "/repo/docs/api/été 1" ∧
      (resolve page project probe "../api/été 1".toList).isBroken = false := by
  intro page project probe
  have hrooted : "/docs/api/été 1".toList =
      rooted (Path.ofString "docs/api/été 1").names := by decide +kernel
  have hclimbing : "../api/été 1".toList =
      climbing 1 (Path.ofString "api/été 1").names := by decide +kernel
  have hnormal : (Path.ofString "/repo/docs/api/été 1").normal = .ofString "/repo/docs/api/été 1" :=
    by decide +kernel
  rw [hrooted, hclimbing]
  obtain ⟨heq, -, hbase, -⟩ :=
    resolve_rooted_eq_resolve_climbing page project (.ofString "/repo/docs/api/été 1")
      (Path.ofString "docs/api/été 1").names (Path.ofString "api/été 1").names 1 probe
      (by decide +kernel) (by decide +kernel) (by decide +kernel) (by decide +kernel)
      (by decide +kernel) (by decide +kernel) (by decide +kernel) (by decide +kernel)
      (by decide +kernel) (by decide +kernel)
  exact ⟨heq, hbase.trans hnormal, by decide +kernel⟩

end Link

end DocLint
