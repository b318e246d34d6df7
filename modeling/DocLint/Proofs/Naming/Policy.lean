/-
What the naming policy accepts.

* `IsPage`: the names of pages; `IsAllowed`: the names that have no fault by themselves.
* `markdownFaults_eq_nil_iff`, `fileFaults_eq_nil_iff`: a name that is not allowed has a fault, and
  no other has.
* `check_of_components`: **the policy for a path** of names: the faults of its directories and those
  of its last name, each for itself.
-/
import Mathlib.Data.List.Basic
import Mathlib.Tactic.Common
import DocLint.Naming
import DocLint.Proofs.Path.Components
import DocLint.Proofs.Path.Extension
import DocLint.Proofs.Text.Lowercase

namespace DocLint.Naming

open Text.Utf8 (decodeLossy encode)

variable {name ext : List Char} {n : FileName}

/-! ### Pages -/

/-- Whether a name is that of a page: small letters, digits and underscores, at least one, and the
extension behind them. -/
def IsPage (name : List Char) : Prop :=
  ∃ stem, stem ≠ [] ∧
    (∀ c ∈ stem, ('a' ≤ c ∧ c ≤ 'z') ∨ ('0' ≤ c ∧ c ≤ '9') ∨ c = '_') ∧
    name = stem ++ ".md".toList

lemma isPageChar_iff {c : Char} :
    isPageChar c = true ↔ ('a' ≤ c ∧ c ≤ 'z') ∨ ('0' ≤ c ∧ c ≤ '9') ∨ c = '_' := by
  simp [isPageChar, or_assoc]

lemma isPageName_iff : isPageName name = true ↔ IsPage name := by
  constructor
  · intro h
    rw [isPageName] at h
    split at h
    · rename_i stem hname
      rw [Bool.and_eq_true, Bool.not_eq_true', List.isEmpty_eq_false_iff, List.all_eq_true] at h
      refine ⟨stem.reverse, List.reverse_ne_nil_iff.mpr h.1, fun c hc => ?_, ?_⟩
      · exact isPageChar_iff.mp (h.2 c (List.mem_reverse.mp hc))
      · rw [← name.reverse_reverse, hname]
        simp
    · cases h
  · rintro ⟨stem, hne, hall, rfl⟩
    have hback : (stem ++ ".md".toList).reverse = 'd' :: 'm' :: '.' :: stem.reverse :=
      List.reverse_append
    rw [isPageName, hback]
    refine Bool.and_eq_true_iff.mpr ⟨?_, List.all_eq_true.mpr fun c hc => ?_⟩
    · rwa [Bool.not_eq_true', List.isEmpty_eq_false_iff, List.reverse_ne_nil_iff]
    · exact isPageChar_iff.mpr (hall c (List.mem_reverse.mp hc))

instance : DecidablePred IsPage := fun _ =>
  decidable_of_iff _ isPageName_iff

/-- The name of a page has no capital letters. -/
lemma IsPage.map_toLower (h : IsPage name) : name.map Char.toLower = name := by
  obtain ⟨stem, -, hall, rfl⟩ := h
  have hend : ".md".toList.map Char.toLower = ".md".toList := by decide
  have hstem : stem.map Char.toLower = stem := by
    refine (List.map_congr_left fun c hc => ?_).trans (List.map_id stem)
    refine Text.toLower_of_lt_or_lt ?_
    -- Small letters and the underscore stand behind the capital letters, digits before them.
    rcases hall c hc with ⟨h, -⟩ | ⟨-, h⟩ | rfl
    · exact Or.inr (Nat.lt_of_lt_of_le (by decide) (UInt32.le_iff_toNat_le.mp h))
    · exact Or.inl (Nat.lt_of_le_of_lt (UInt32.le_iff_toNat_le.mp h) (by decide))
    · exact Or.inr (by decide)
  rw [List.map_append, hend, hstem]

/-- Among pages only one has the letters of the index page. -/
lemma IsPage.sameLetters_indexName (h : IsPage name) :
    sameLetters name indexName = true ↔ name = "readme.md".toList := by
  have hindex : indexName.map Char.toLower = "readme.md".toList := by decide
  rw [sameLetters, h.map_toLower, hindex, beq_iff_eq]

/-! ### Faults of a name -/

/-- What is no page is told at least one fault. -/
lemma characterFaults_ne_nil (name : List Char) : characterFaults name ≠ [] := by
  have hfallback : ∀ specific : List Fault,
      (if specific.isEmpty then [.otherCharacters] else specific) ≠ [] := fun specific => by
    split_ifs with h
    · exact List.cons_ne_nil _ _
    · rwa [List.isEmpty_iff] at h
  exact hfallback _

lemma markdownFaults_eq_nil_iff : markdownFaults name ext = [] ↔
    ext = "md".toList ∧ (name = indexName ∨ IsPage name ∧ name ≠ "readme.md".toList) := by
  rw [markdownFaults, List.append_eq_nil_iff]
  refine and_congr ?_ ?_
  · split_ifs with h
    · exact iff_of_true rfl h
    · exact iff_of_false not_false h
  · split_ifs with hindex hletters hpage
    · exact iff_of_true rfl (Or.inl hindex)
    · -- The letters are those of the index page, so the name is judged as that and not as a page.
      refine iff_of_false not_false ?_
      rintro (h | ⟨h, hreadme⟩)
      · exact hindex h
      · exact hreadme (h.sameLetters_indexName.mp hletters)
    · have hname := isPageName_iff.mp hpage
      exact iff_of_true rfl (Or.inr ⟨hname, hname.sameLetters_indexName.not.mp hletters⟩)
    · refine iff_of_false (characterFaults_ne_nil name) ?_
      rintro (h | ⟨h, -⟩)
      · exact hindex h
      · exact hpage (isPageName_iff.mpr h)

/-- The extensions of data files are told by their letters alone, but only one spelling is free of
faults. -/
lemma extensionFaults_eq_nil_iff : extensionFaults name ext = [] ↔
    (Text.lowercase ext = "md".toList ∧ markdownFaults name ext = []) ∨ ext = "yaml".toList ∨
      Text.lowercase ext ∉ ["md".toList, "yml".toList, "yaml".toList] := by
  have hyaml : ext = "yaml".toList → Text.lowercase ext = "yaml".toList := by
    rintro rfl
    decide +kernel
  rw [extensionFaults]
  split_ifs with hmd hyml hcase
  · constructor
    · exact fun h => Or.inl ⟨hmd, h⟩
    · rintro (⟨-, h⟩ | h | h)
      · exact h
      · exact absurd ((hyaml h).symm.trans hmd) (by decide)
      · exact absurd (by simp [hmd]) h
  · refine iff_of_false not_false ?_
    rintro (⟨h, -⟩ | h | h)
    · exact hmd h
    · exact absurd ((hyaml h).symm.trans hyml) (by decide)
    · exact absurd (by simp [hyml]) h
  · refine iff_of_false not_false ?_
    rintro (⟨h, -⟩ | h | h)
    · exact hmd h
    · exact hcase.2 h
    · exact absurd (by simp [hcase.1]) h
  · refine iff_of_true rfl (Or.inr ?_)
    by_cases hext : ext = "yaml".toList
    · exact Or.inl hext
    · refine Or.inr fun hmem => ?_
      rw [List.mem_cons, List.mem_cons, List.mem_singleton] at hmem
      exact hmem.elim hmd fun h => h.elim hyml fun h => hcase ⟨h, hext⟩

/-! ### Names that are allowed -/

/-- Whether the policy allows a name: it has no extension, or that of pages in any case and is the
index page or a page under any other name, or exactly that of data files, or any that is neither. -/
def IsAllowed (n : FileName) : Prop :=
  ∀ ext, n.extension? = some ext →
    (Text.lowercase (decodeLossy ext) = "md".toList ∧
      (n.text = indexName ∨ IsPage n.text ∧ n.text ≠ "readme.md".toList)) ∨
    decodeLossy ext = "yaml".toList ∨
    Text.lowercase (decodeLossy ext) ∉ ["md".toList, "yml".toList, "yaml".toList]

/-- A name that ends like a page has the extension of one, if something is before it. -/
lemma extension?_of_page_end {stem : List Char} (hne : stem ≠ [])
    (h : n.text = stem ++ ".md".toList) : n.extension?.map decodeLossy = some "md".toList :=
  FileName.text_extension?_eq_some_iff.mpr ⟨stem, hne, h, by decide⟩

lemma extension?_of_isPage (h : IsPage n.text) :
    n.extension?.map decodeLossy = some "md".toList := by
  obtain ⟨stem, hne, -, hname⟩ := h
  exact extension?_of_page_end hne hname

lemma extension?_of_indexName (h : n.text = indexName) :
    n.extension?.map decodeLossy = some "md".toList := by
  have hend : n.text = "README".toList ++ ".md".toList := h
  exact extension?_of_page_end (by decide) hend

/-- For the name of a page, or of the index page, the extension needs no second look. -/
lemma markdownFaults_text_eq_nil_iff {ext : List UInt8} (h : n.extension? = some ext) :
    markdownFaults n.text (decodeLossy ext) = [] ↔
      n.text = indexName ∨ IsPage n.text ∧ n.text ≠ "readme.md".toList := by
  rw [markdownFaults_eq_nil_iff, and_iff_right_iff_imp]
  have hread : ∀ {w}, n.extension?.map decodeLossy = some w → decodeLossy ext = w := fun hw => by
    rw [h] at hw
    exact Option.some.inj hw
  rintro (hname | ⟨hname, -⟩)
  · exact hread (extension?_of_indexName hname)
  · exact hread (extension?_of_isPage hname)

/-- **The policy for a name**: it has no fault exactly if it is allowed. -/
lemma fileFaults_eq_nil_iff : fileFaults n = [] ↔ IsAllowed n := by
  rw [fileFaults, IsAllowed]
  cases h : n.extension? with
  | none => exact iff_of_true rfl nofun
  | some ext =>
      simp only [Option.some.injEq, forall_eq', extensionFaults_eq_nil_iff,
        markdownFaults_text_eq_nil_iff h]

lemma isAllowed_of_extension?_eq_none (h : n.extension? = none) : IsAllowed n := by
  rw [← fileFaults_eq_nil_iff, fileFaults, h]

/-- What the policy says of the extension of pages. -/
lemma isAllowed_iff_of_md {ext : List UInt8} (h : n.extension? = some ext)
    (hmd : Text.lowercase (decodeLossy ext) = "md".toList) :
    IsAllowed n ↔ n.text = indexName ∨ IsPage n.text ∧ n.text ≠ "readme.md".toList := by
  rw [← fileFaults_eq_nil_iff, fileFaults, h, ← markdownFaults_text_eq_nil_iff h]
  dsimp only
  rw [extensionFaults, if_pos hmd]

/-! ### Paths -/

/-- A name by itself, as a path. -/
lemma components_bytes (n : FileName) : (⟨n.bytes⟩ : Path).components = [.name n] :=
  Path.components_ofRelativeNames [n]

/-- The faults of a path of names are those of its directories and those of its last name. -/
lemma faults_of_components {p : Path} (ds : List FileName)
    (h : p.components = (ds ++ [n]).map .name) :
    faults p = (ds.filter fun d => Text.hasUppercase d.text).map (.uppercaseDirectory ·.text) ++
      fileFaults n := by
  have hnames : p.names = ds ++ [n] := by
    rw [Path.names, h, List.filterMap_map]
    exact List.filterMap_some
  have hlast : p.fileName? = some n := by
    rw [Path.fileName?, h, List.map_append, List.map_singleton, List.getLast?_concat]
  rw [faults, directoryFaults, hnames, hlast, List.dropLast_concat, List.filter_map, List.map_map]
  rfl

lemma faults_bytes (n : FileName) : faults ⟨n.bytes⟩ = fileFaults n :=
  faults_of_components [] (components_bytes n)

lemma check_bytes_eq_nil_iff : check ⟨n.bytes⟩ = [] ↔ IsAllowed n := by
  rw [check, List.map_eq_nil_iff, faults_bytes, fileFaults_eq_nil_iff]

/-- **The policy for a path** of names: each directory with an uppercase character is told, in
order, and then what is wrong with the last name by itself. Nothing is wrong exactly if there is no
such directory and the last name is allowed. -/
theorem check_of_components {p : Path} {ds : List FileName} {n : FileName}
    (h : p.components = (ds ++ [n]).map .name) :
    check p =
        ((ds.filter fun d => d.text.any Text.isUppercase).map fun d =>
          (Fault.uppercaseDirectory d.text).message) ++ check ⟨n.bytes⟩ ∧
      (check p = [] ↔
        (∀ d ∈ ds, ∀ c ∈ d.text, Text.isUppercase c = false) ∧ IsAllowed n) := by
  refine ⟨?_, ?_⟩
  · rw [check, check, faults_of_components ds h, faults_bytes, List.map_append, List.map_map]
    rfl
  · rw [check, List.map_eq_nil_iff, faults_of_components ds h, List.append_eq_nil_iff,
      List.map_eq_nil_iff, List.filter_eq_nil_iff, fileFaults_eq_nil_iff]
    refine and_congr_left' (forall₂_congr fun d _ => ?_)
    rw [Text.hasUppercase, Bool.not_eq_true, List.any_eq_false]
    simp only [Bool.not_eq_true]

/-- A directory with a capital letter. -/
def guides : FileName := ⟨encode "Guides".toList, by decide⟩

/-- A directory without one. -/
def v2 : FileName := ⟨encode "v2".toList, by decide⟩

/-- A page. -/
def firstPage : FileName := ⟨encode "page_1.md".toList, by decide⟩

/-- A page below two directories: it is allowed, and one directory is told. -/
theorem check_of_components_firstPage :
    (Path.ofString "Guides//v2/page_1.md").components = ([guides, v2] ++ [firstPage]).map .name ∧
      IsAllowed firstPage ∧
      check (Path.ofString "Guides//v2/page_1.md") =
        ["directory contains uppercase characters: 'Guides'"] := by
  have hcomponents : (Path.ofString "Guides//v2/page_1.md").components =
      ([guides, v2] ++ [firstPage]).map .name := by
    decide +kernel
  have hext : firstPage.extension? = some (encode "md".toList) := by decide
  have hallowed : IsAllowed firstPage := fun ext h => by
    obtain rfl := Option.some.inj (hext.symm.trans h)
    exact Or.inl ⟨by decide +kernel, Or.inr ⟨by decide, by decide⟩⟩
  refine ⟨hcomponents, hallowed, ?_⟩
  rw [(check_of_components hcomponents).1, check_bytes_eq_nil_iff.mpr hallowed]
  decide +kernel

/-- The index page in small letters. -/
def smallIndex : FileName := ⟨encode "readme.md".toList, by decide⟩

/-- **A name of small letters that is not allowed**: it is spelled like a page, but the index page
has its letters. -/
theorem check_smallIndex :
    (Path.ofString "readme.md").components = [.name smallIndex] ∧
      smallIndex.extension? = some (encode "md".toList) ∧ IsPage smallIndex.text ∧
      check (Path.ofString "readme.md") =
        ["index file must be named exactly 'README.md' (found 'readme.md')"] :=
  ⟨by decide, by decide, by decide, by decide +kernel⟩

end DocLint.Naming
