/-
The candidates of a target, one after another.

* `Path.exists_append_eq_ofNames`, `Path.eq_of_same_ofNames`: an absolute path in
  normal form stays one when its last name is made longer, and such paths are the
  same only if they are equal.
* `distinct_of_pairwise`: nothing is left out of a list in which no two paths are the
  same; `pairwise_map_append`: different endings make different paths.
* `endings`: what is put behind a base to make its candidates, in order.
* `candidates_eq_map_append`: the candidates are the base with each of these endings, and
  none of them is left out.
* `candidates_listed`: when there are none, which ones there are otherwise and in which
  order; all are absolute and in normal form and no two are the same.
-/
import Mathlib.Data.List.Basic
import Mathlib.Data.List.Induction
import Mathlib.Tactic.Common
import DocLint.Link.Resolve
import DocLint.Proofs.Path.Components
import DocLint.Proofs.Text.Trim

namespace DocLint

/-! ### Names that are made longer -/

lemma isFileName_append {bs e : List UInt8} (hbs : slash ∉ bs) (he : slash ∉ e)
    (hlen : 3 ≤ e.length) : IsFileName (bs ++ e) := by
  have hne : ∀ short : List UInt8, short.length < 3 → bs ++ e ≠ short := by
    rintro short hshort rfl
    rw [List.length_append] at hshort
    omega
  refine ⟨hne [] (by simp), hne [dot] (by simp), hne [dot, dot] (by simp), ?_⟩
  rw [List.mem_append, not_or]
  exact ⟨hbs, he⟩

namespace Path

/-- Bytes behind an absolute path in normal form make its last name longer. -/
lemma exists_append_eq_ofNames (ns : List FileName) {e : List UInt8} (he : slash ∉ e)
    (hlen : 3 ≤ e.length) : ∃ ms, (ofNames ns).append e = ofNames ms := by
  rcases List.eq_nil_or_concat' ns with rfl | ⟨init, n, rfl⟩
  · have hvalid : IsFileName e := isFileName_append List.not_mem_nil he hlen
    exact ⟨[⟨e, hvalid⟩], rfl⟩
  · have hvalid : IsFileName (n.bytes ++ e) := isFileName_append n.slash_notMem_bytes he hlen
    refine ⟨init ++ [⟨n.bytes ++ e, hvalid⟩], ?_⟩
    have hbytes : ∀ m, (ofNames (init ++ [m])).bytes =
        (init.flatMap fun k => slash :: k.bytes) ++ slash :: m.bytes := fun m => by
      rw [bytes_ofNames_of_ne_nil (by simp), List.flatMap_append, List.flatMap_singleton]
    rw [append, hbytes, List.append_assoc, List.cons_append,
      ← hbytes ⟨n.bytes ++ e, hvalid⟩]

lemma eq_of_same_ofNames {ns ms : List FileName} (h : (ofNames ns).Same (ofNames ms)) :
    ofNames ns = ofNames ms := by
  rw [Same, components_ofNames, components_ofNames, List.cons_inj_right] at h
  have hinj : Function.Injective Component.name := fun a b hab => by
    cases hab
    rfl
  rw [List.map_injective_iff.mpr hinj h]

end Path

namespace Link

variable {sourceDir projectRoot : Path} {probe : Probe} {target : List Char} {b : Path}

/-! ### Leaving out what is there already -/

/-- Adds a path to those that are kept, unless one of them is the same. -/
def keep (kept : List Path) (p : Path) : List Path :=
  if kept.any (fun q => decide (q.Same p)) then kept else kept ++ [p]

lemma distinct_eq_foldl (ps : List Path) : distinct ps = ps.foldl keep [] := rfl

lemma prefix_foldl_keep (kept ps : List Path) : kept <+: ps.foldl keep kept := by
  refine List.foldlRecOn ps keep (motive := fun out => kept <+: out) List.prefix_rfl ?_
  intro out hout p _
  refine hout.trans ?_
  rw [keep]
  split_ifs
  · exact List.prefix_rfl
  · exact List.prefix_append _ _

/-- The first path is always kept, as the first one. -/
lemma head?_distinct_cons (p : Path) (ps : List Path) : (distinct (p :: ps)).head? = some p := by
  obtain ⟨qs, hqs⟩ := prefix_foldl_keep [p] ps
  rw [distinct_eq_foldl, List.foldl_cons, show keep [] p = [p] from rfl, ← hqs]
  rfl

lemma distinct_of_pairwise {ps : List Path} (h : ps.Pairwise fun p q => ¬p.Same q) :
    distinct ps = ps := by
  induction ps using List.reverseRecOn with
  | nil => rfl
  | append_singleton ps p ih =>
      obtain ⟨hps, -, hlast⟩ := List.pairwise_append.mp h
      rw [distinct_eq_foldl, List.foldl_append, ← distinct_eq_foldl, ih hps, List.foldl_cons,
        List.foldl_nil, keep, if_neg]
      rw [List.any_eq_true]
      rintro ⟨q, hq, hsame⟩
      exact hlast q hq p (List.mem_singleton_self p) (of_decide_eq_true hsame)

/-- Different endings make different paths, if all of these are absolute and in normal
form. -/
lemma pairwise_map_append {es : List (List UInt8)} (hes : es.Nodup)
    (h : ∀ e ∈ es, ∃ ns, b.append e = .ofNames ns) :
    (es.map b.append).Pairwise fun p q => ¬p.Same q := by
  rw [List.pairwise_map]
  refine hes.imp_of_mem fun {e e'} he he' hne hsame => hne ?_
  obtain ⟨ns, hns⟩ := h e he
  obtain ⟨ms, hms⟩ := h e' he'
  rw [hns, hms] at hsame
  have hpath : b.append e = b.append e' := by
    rw [hns, hms, Path.eq_of_same_ofNames hsame]
  exact List.append_cancel_left (congrArg Path.bytes hpath)

/-! ### The base of a target -/

/-- The path that a target spells is absolute and in normal form. -/
lemma exists_base_eq_ofNames (hsource : sourceDir.isAbsolute = true)
    (hproject : projectRoot.isAbsolute = true) (target : List Char) :
    ∃ ns, base sourceDir projectRoot target = .ofNames ns := by
  rw [base]
  split
  · exact Path.exists_normal_eq_ofNames (Path.isAbsolute_join hproject)
  · exact Path.exists_normal_eq_ofNames (Path.isAbsolute_join hsource)

/-! ### The index file -/

/-- The name of the file that stands for a directory. -/
def indexName : FileName :=
  ⟨indexFile.bytes, by decide⟩

lemma indexFile_eq : indexFile = .ofRelativeNames [indexName] := rfl

/-- What leads from a directory to the file that stands for it. -/
def indexEnding (b : Path) : List UInt8 :=
  if b.bytes.getLast? = some slash then indexFile.bytes else slash :: indexFile.bytes

lemma join_indexFile (hb : b.bytes ≠ []) : b.join indexFile = b.append (indexEnding b) := by
  have hrelative : indexFile.isAbsolute = false := by decide
  rw [Path.join, hrelative, if_neg Bool.false_ne_true, indexEnding]
  simp only [hb, false_or]
  split_ifs <;> rfl

lemma join_indexFile_ofNames (ns : List FileName) :
    (Path.ofNames ns).join indexFile = .ofNames (ns ++ [indexName]) := by
  rw [indexFile_eq, Path.join_ofRelativeNames ns (List.cons_ne_nil _ [])]

/-- The index file has an extension, so there are no variants of it. -/
lemma variants_join_indexFile (ns : List FileName) :
    variants ((Path.ofNames ns).join indexFile) = [(Path.ofNames ns).join indexFile] := by
  have hextension : ((Path.ofNames ns).join indexFile).extension?.isNone = false := by
    rw [join_indexFile_ofNames, Path.extension?, Path.fileName?_ofNames_concat]
    decide
  rw [variants, hextension, if_neg Bool.false_ne_true]

/-! ### Endings -/

/-- An extension holds no slash and is longer than any name of dots. -/
lemma slash_notMem_guessedExtensions :
    ∀ e ∈ guessedExtensions, slash ∉ e ∧ 3 ≤ e.length := by decide

/-- What is put behind a base to make its candidates, in order. -/
def endings (probe : Probe) (b : Path) : List (List UInt8) :=
  (if b.extension?.isNone then guessedExtensions else []) ++
    [] :: (if probe.isDirectory b then [indexEnding b] else [])

lemma nodup_endings (probe : Probe) (b : Path) : (endings probe b).Nodup := by
  rw [endings, indexEnding]
  split_ifs <;> decide

lemma exists_append_ending_eq_ofNames (probe : Probe) (ns : List FileName) :
    ∀ e ∈ endings probe (.ofNames ns), ∃ ms, (Path.ofNames ns).append e = .ofNames ms := by
  intro e he
  rw [endings, List.mem_append, List.mem_cons] at he
  rcases he with he | rfl | he
  · split_ifs at he
    · obtain ⟨hslash, hlen⟩ := slash_notMem_guessedExtensions e he
      exact Path.exists_append_eq_ofNames ns hslash hlen
    · cases he
  · exact ⟨ns, congrArg Path.mk (List.append_nil _)⟩
  · split_ifs at he
    · rw [List.mem_singleton.mp he, ← join_indexFile (Path.ofNames_bytes_ne_nil ns),
        join_indexFile_ofNames]
      exact ⟨_, rfl⟩
    · cases he

/-- The variants of a base and its index file are the base with its endings. -/
lemma map_append_endings (probe : Probe) (ns : List FileName) :
    (endings probe (.ofNames ns)).map (Path.ofNames ns).append =
      variants (.ofNames ns) ++
        if probe.isDirectory (.ofNames ns) then variants ((Path.ofNames ns).join indexFile)
        else [] := by
  have hself : (Path.ofNames ns).append [] = .ofNames ns :=
    congrArg Path.mk (List.append_nil _)
  have hindex := join_indexFile (Path.ofNames_bytes_ne_nil ns)
  rw [variants_join_indexFile, hindex, endings, variants]
  split_ifs <;> simp [hself]

/-! ### Candidates -/

lemma mem_variants_self (b : Path) : b ∈ variants b := by
  rw [variants]
  split_ifs <;> simp

lemma candidates_of_isRejected (h : isRejected target = true) :
    candidates sourceDir projectRoot probe target = [] := by
  rw [candidates, if_pos h]

/-- The variants of the base come first, then those of the index file in it. -/
lemma candidates_eq_distinct (h : isRejected target = false) :
    candidates sourceDir projectRoot probe target =
      distinct (variants (base sourceDir projectRoot target) ++
        if probe.isDirectory (base sourceDir projectRoot target) then
          variants ((base sourceDir projectRoot target).join indexFile)
        else []) := by
  rw [candidates, h, if_neg Bool.false_ne_true]
  dsimp only
  split_ifs
  · rw [List.flatMap_cons, List.flatMap_singleton]
  · rw [List.flatMap_singleton, List.append_nil]

/-- **The candidates of a target** that is not rejected are its base with each of the
endings. -/
lemma candidates_eq_map_append (hsource : sourceDir.isAbsolute = true)
    (hproject : projectRoot.isAbsolute = true) (h : isRejected target = false) :
    candidates sourceDir projectRoot probe target =
      (endings probe (base sourceDir projectRoot target)).map
        (base sourceDir projectRoot target).append := by
  obtain ⟨ns, hns⟩ := exists_base_eq_ofNames hsource hproject target
  rw [candidates_eq_distinct h, hns, ← map_append_endings]
  exact distinct_of_pairwise
    (pairwise_map_append (nodup_endings probe _) (exists_append_ending_eq_ofNames probe ns))

/-- They are the variants of the base and, if it is a directory, those of the index file
in it. -/
lemma candidates_eq_append (hsource : sourceDir.isAbsolute = true)
    (hproject : projectRoot.isAbsolute = true) (h : isRejected target = false) :
    candidates sourceDir projectRoot probe target =
      variants (base sourceDir projectRoot target) ++
        if probe.isDirectory (base sourceDir projectRoot target) then
          variants ((base sourceDir projectRoot target).join indexFile)
        else [] := by
  obtain ⟨ns, hns⟩ := exists_base_eq_ofNames hsource hproject target
  rw [candidates_eq_map_append hsource hproject h, hns, map_append_endings]

lemma candidates_eq_nil_iff (hsource : sourceDir.isAbsolute = true)
    (hproject : projectRoot.isAbsolute = true) :
    candidates sourceDir projectRoot probe target = [] ↔ isRejected target = true := by
  cases h : isRejected target with
  | true => exact iff_of_true (candidates_of_isRejected h) rfl
  | false =>
      rw [candidates_eq_map_append hsource hproject h, endings]
      simp

lemma isRejected_iff : isRejected target = true ↔
    Text.trim target = [] ∨ isAnchor (Text.trim target) = true ∨
      isExternal (Text.trim target) = true := by
  rw [isRejected, isAnchor, isAnchor, isExternal, isExternal, Text.trim_trim, Bool.or_eq_true,
    Bool.or_eq_true, List.isEmpty_iff, or_assoc]

lemma exists_eq_ofNames_of_mem_candidates (hsource : sourceDir.isAbsolute = true)
    (hproject : projectRoot.isAbsolute = true) {c : Path}
    (hc : c ∈ candidates sourceDir projectRoot probe target) : ∃ ns, c = .ofNames ns := by
  cases h : isRejected target with
  | true =>
      rw [candidates_of_isRejected h] at hc
      cases hc
  | false =>
      obtain ⟨ns, hns⟩ := exists_base_eq_ofNames hsource hproject target
      rw [candidates_eq_map_append hsource hproject h, hns] at hc
      obtain ⟨e, he, rfl⟩ := List.mem_map.mp hc
      exact exists_append_ending_eq_ofNames probe ns e he

lemma pairwise_candidates (hsource : sourceDir.isAbsolute = true)
    (hproject : projectRoot.isAbsolute = true) :
    (candidates sourceDir projectRoot probe target).Pairwise fun p q => ¬p.Same q := by
  cases h : isRejected target with
  | true =>
      rw [candidates_of_isRejected h]
      exact .nil
  | false =>
      obtain ⟨ns, hns⟩ := exists_base_eq_ofNames hsource hproject target
      rw [candidates_eq_map_append hsource hproject h, hns]
      exact pairwise_map_append (nodup_endings probe _) (exists_append_ending_eq_ofNames probe ns)

/-- A path with the bytes of some characters at its end. -/
def withEnding (b : Path) (ending : String) : Path :=
  b.append (Text.Utf8.encode ending.toList)

/-- The candidates that a base stands for: it with each of the usual extensions if it has
none, it as it is, and the index file in it if it is a directory. -/
def listing (probe : Probe) (b : Path) : List Path :=
  (if b.extension? = none then [".md", ".yaml", ".json"].map (withEnding b) else []) ++
    b :: (if probe.isDirectory b then [b.join indexFile] else [])

lemma map_append_endings_eq_listing (probe : Probe) (ns : List FileName) :
    (endings probe (.ofNames ns)).map (Path.ofNames ns).append = listing probe (.ofNames ns) := by
  have hvariants : variants (.ofNames ns) =
      (if (Path.ofNames ns).extension? = none then
        [".md", ".yaml", ".json"].map (withEnding (.ofNames ns)) else []) ++ [.ofNames ns] := by
    rw [variants]
    simp only [Option.isNone_iff_eq_none]
    split_ifs <;> rfl
  rw [map_append_endings, variants_join_indexFile, hvariants, List.append_assoc,
    List.singleton_append, listing]

/-- **Which candidates a target has**: none if it is blank, a place on the same page or
external, and otherwise those that its base stands for. All are absolute and in normal
form, and no two are the same path. Of the files nothing is asked but whether the base is
a directory. -/
theorem candidates_listed (hsource : sourceDir.isAbsolute = true)
    (hproject : projectRoot.isAbsolute = true) (probe : Probe) (target : List Char) :
    (candidates sourceDir projectRoot probe target = [] ↔
      Text.trim target = [] ∨ isAnchor (Text.trim target) = true ∨
        isExternal (Text.trim target) = true) ∧
    (candidates sourceDir projectRoot probe target ≠ [] →
      candidates sourceDir projectRoot probe target =
        listing probe (base sourceDir projectRoot target)) ∧
    (∀ c ∈ candidates sourceDir projectRoot probe target,
      c.isAbsolute = true ∧ c.normal = c) ∧
    (candidates sourceDir projectRoot probe target).Pairwise (fun p q => ¬p.Same q) ∧
    ∀ probe' : Probe,
      probe'.isDirectory (base sourceDir projectRoot target) =
        probe.isDirectory (base sourceDir projectRoot target) →
      candidates sourceDir projectRoot probe' target =
        candidates sourceDir projectRoot probe target := by
  refine ⟨?_, ?_, ?_, pairwise_candidates hsource hproject, ?_⟩
  · rw [candidates_eq_nil_iff hsource hproject, isRejected_iff]
  · intro hne
    rw [ne_eq, candidates_eq_nil_iff hsource hproject, Bool.not_eq_true] at hne
    obtain ⟨ns, hns⟩ := exists_base_eq_ofNames hsource hproject target
    rw [candidates_eq_map_append hsource hproject hne, hns, map_append_endings_eq_listing]
  · intro c hc
    obtain ⟨ns, rfl⟩ := exists_eq_ofNames_of_mem_candidates hsource hproject hc
    exact ⟨Path.isAbsolute_ofNames ns, Path.normal_ofNames ns⟩
  · intro probe' hdir
    cases h : isRejected target with
    | true => rw [candidates_of_isRejected h, candidates_of_isRejected h]
    | false => rw [candidates_eq_distinct h, candidates_eq_distinct h, hdir]

/-- A target that climbs above the root has the root as its base. -/
theorem candidates_listed_root :
    candidates (.ofString "/d") (.ofString "/") ⟨fun _ => false, fun p => p = .ofString "/"⟩
        " ../..//a/../#b ".toList =
      ["/.md", "/.yaml", "/.json", "/", "/README.md"].map Path.ofString := by
  have hne : candidates (.ofString "/d") (.ofString "/")
      ⟨fun _ => false, fun p => p = .ofString "/"⟩ " ../..//a/../#b ".toList ≠ [] := by
    decide +kernel
  rw [(candidates_listed (by decide) (by decide) _ _).2.1 hne]
  decide +kernel

end Link

end DocLint
