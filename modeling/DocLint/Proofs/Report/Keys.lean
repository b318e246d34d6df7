/-
The keys of a report, and what a dictionary makes of them.

* `Json.IsDictionary`: what a reader may keep of fields if it keeps one of each name.
* `Report.keys`: the names of the fields that list the violations by file;
  `Report.Recovers`: whether all of them, and the counts, are found in what is kept.
* `Check.keys_of_run`: two files of a report have one key only if it holds a replacement
  character; a dictionary loses files and violations just if this happens.
* `Check.exists_not_nodup_keys`: it may happen.
-/
import Mathlib.Algebra.GroupWithZero.Nat
import Mathlib.Data.List.Nodup
import Mathlib.Data.List.Perm.Subperm
import DocLint.Proofs.Discovery.Unfollowed
import DocLint.Proofs.Report.Decoded
import DocLint.Proofs.Report.Pointwise

namespace DocLint

/-! ### Dictionaries -/

namespace Json

/-- The number of items of an array. -/
def itemCount : Json → Nat
  | array xs => xs.length
  | _ => 0

/-- What a reader may keep of fields: one of each name, whichever of them. -/
structure IsDictionary (fs kept : List (String × Json)) : Prop where
  subset : ∀ f ∈ kept, f ∈ fs
  nodup : (kept.map (·.1)).Nodup
  complete : ∀ f ∈ fs, f.1 ∈ kept.map (·.1)

lemma exists_isDictionary (fs : List (String × Json)) : ∃ kept, IsDictionary fs kept := by
  induction fs with
  | nil => exact ⟨[], fun _ h => h, List.nodup_nil, fun _ h => nomatch h⟩
  | cons f fs ih =>
      obtain ⟨kept, hsubset, hnodup, hcomplete⟩ := ih
      by_cases hf : f.1 ∈ kept.map (·.1)
      · exact ⟨kept, fun g hg => List.mem_cons_of_mem f (hsubset g hg), hnodup,
          List.forall_mem_cons.mpr ⟨hf, hcomplete⟩⟩
      · refine ⟨f :: kept, List.cons_subset_cons f hsubset, List.nodup_cons.mpr ⟨hf, hnodup⟩,
          List.forall_mem_cons.mpr ⟨List.mem_cons_self, fun g hg => ?_⟩⟩
        exact List.mem_cons_of_mem _ (hcomplete g hg)

variable {fs kept : List (String × Json)}

/-- The others are lost. -/
lemma IsDictionary.exists_lost (h : IsDictionary fs kept) :
    ∃ lost, fs.Perm (kept ++ lost) := by
  obtain ⟨l, hl, hsub⟩ := List.subperm_of_subset h.nodup.of_map h.subset
  obtain ⟨lost, hlost⟩ := hsub.exists_perm_append
  exact ⟨lost, hlost.trans (hl.append_right lost)⟩

/-- None is lost if their names are different, and only then. -/
lemma IsDictionary.lost_eq_nil_iff (h : IsDictionary fs kept) {lost : List (String × Json)}
    (hlost : fs.Perm (kept ++ lost)) : lost = [] ↔ (fs.map (·.1)).Nodup := by
  have hnames : (fs.map (·.1)).Perm (kept.map (·.1) ++ lost.map (·.1)) := by
    rw [← List.map_append]
    exact hlost.map _
  rw [hnames.nodup_iff]
  constructor
  · rintro rfl
    rw [List.map_nil, List.append_nil]
    exact h.nodup
  · intro hnodup
    refine List.eq_nil_iff_forall_not_mem.mpr fun f hf => ?_
    have hkept := h.complete f (hlost.mem_iff.mpr (List.mem_append_right kept hf))
    exact List.disjoint_of_nodup_append hnodup hkept (List.mem_map_of_mem hf)

end Json

/-! ### Keys -/

namespace Report

variable {r : Report}

/-- The fields that list the violations by file. -/
def fields (r : Report) : List (String × Json) :=
  r.findings.entries.map entryToJson

/-- The names of these fields. -/
def keys (r : Report) : List String :=
  r.findings.entries.map (·.1.display)

/-- Whether all that a report lists by file, and its counts, are found in what is kept
of its fields. -/
structure Recovers (r : Report) (kept : List (String × Json)) : Prop where
  every : ∀ e ∈ r.findings.entries, entryToJson e ∈ kept
  count : (kept.map (·.2.itemCount)).sum = r.findings.count
  fileCount : kept.length = r.findings.fileCount

lemma map_fields (r : Report) : r.fields.map (·.1) = r.keys := by
  rw [fields, List.map_map]
  rfl

lemma sum_fields (r : Report) : (r.fields.map (·.2.itemCount)).sum = r.findings.count := by
  rw [Findings.count, Findings.all, List.length_flatMap, fields, List.map_map]
  refine congrArg List.sum (List.map_congr_left fun e _ => ?_)
  exact List.length_map _

lemma length_fields (h : ∀ e ∈ r.findings.entries, e.2 ≠ []) :
    r.fields.length = r.findings.fileCount := by
  have hall : r.findings.entries.filter (fun e => !e.2.isEmpty) = r.findings.entries := by
    refine List.filter_eq_self.mpr fun e he => ?_
    rw [Bool.not_eq_true', List.isEmpty_eq_false_iff]
    exact h e he
  rw [Findings.fileCount, hall, fields, List.length_map]

lemma itemCount_pos (h : ∀ e ∈ r.findings.entries, e.2 ≠ []) :
    ∀ f ∈ r.fields, 0 < f.2.itemCount := by
  intro f hf
  obtain ⟨e, he, rfl⟩ := List.mem_map.mp hf
  have hlen : (entryToJson e).2.itemCount = e.2.length := List.length_map _
  rw [hlen]
  exact List.length_pos_iff.mpr (h e he)

/-- Of two files with one key, one at least is no text, and the key shows it. -/
lemma mem_text_of_display_eq {x y : Path × List Violation} (hx : x ∈ r.findings.entries)
    (hy : y ∈ r.findings.entries) (hne : x ≠ y) (h : x.1.display = y.1.display) :
    '\ufffd' ∈ x.1.text ∧ ¬ (x.1.IsUtf8 ∧ y.1.IsUtf8) := by
  have hpair : ¬ (x.1.IsUtf8 ∧ y.1.IsUtf8) := fun ⟨hxs, hys⟩ =>
    hne (Findings.eq_of_same hx hy (congrArg Path.components (Path.eq_of_display_eq hxs hys h)))
  refine ⟨by_contra fun hnot => hpair ⟨Path.isUtf8_of_notMem hnot, ?_⟩, hpair⟩
  rw [String.ofList_injective h] at hnot
  exact Path.isUtf8_of_notMem hnot

lemma nodup_keys (h : r.HasTextPaths) : r.keys.Nodup := by
  refine List.pairwise_map.mpr (r.findings.sorted.imp_of_mem fun hx hy hlt heq => ?_)
  exact hlt.key_ne (congrArg Path.key (Path.eq_of_display_eq (h _ hx) (h _ hy) heq))

/-- What a dictionary makes of the fields of a report whose files have violations. -/
lemma recovers_or_loses (hentries : ∀ e ∈ r.findings.entries, e.2 ≠ [])
    {kept : List (String × Json)} (h : Json.IsDictionary r.fields kept) :
    (r.keys.Nodup → r.Recovers kept) ∧
    (¬ r.keys.Nodup → kept.length < r.findings.fileCount ∧
      (kept.map (·.2.itemCount)).sum < r.findings.count) := by
  obtain ⟨lost, hlost⟩ := h.exists_lost
  have hnone := h.lost_eq_nil_iff hlost
  have hlength := hlost.length_eq
  have hsum := (hlost.map (·.2.itemCount)).sum_nat
  rw [map_fields] at hnone
  rw [length_fields hentries, List.length_append] at hlength
  rw [sum_fields, List.map_append, List.sum_append_nat] at hsum
  constructor
  · intro hnodup
    rw [hnone.mpr hnodup] at hlost hlength hsum
    refine ⟨fun e he => ?_, by simpa using hsum.symm, by simpa using hlength.symm⟩
    rw [List.append_nil] at hlost
    exact hlost.mem_iff.mp (List.mem_map_of_mem he)
  · intro hdup
    obtain ⟨f, lost, rfl⟩ := List.exists_cons_of_ne_nil (mt hnone.mp hdup)
    have hpos := itemCount_pos hentries f (hlost.mem_iff.mpr (by simp))
    simp only [List.length_cons] at hlength
    simp only [List.map_cons, List.sum_cons] at hsum
    omega

end Report

/-- **The keys of a run**: two files of a report have one key only if it holds a
replacement character, and one of the paths at least is not the text of characters; so the
keys are different if all paths are. A reader that keeps the fields in a dictionary finds
every file and both counts again if the keys are different, and else loses files and
violations. -/
theorem Check.keys_of_run {c : Check} {fs : FileSystem} {config : Config} {r : Report}
    (h : c.run fs config = .ok r) :
    r.toJson.get? "violations" = some (.object r.fields) ∧ r.fields.map (·.1) = r.keys ∧
    (∀ x ∈ r.findings.entries, ∀ y ∈ r.findings.entries, x ≠ y → x.1.display = y.1.display →
      '\ufffd' ∈ x.1.text ∧ ¬ (x.1.IsUtf8 ∧ y.1.IsUtf8)) ∧
    (r.HasTextPaths → r.keys.Nodup) ∧
    (∃ kept, Json.IsDictionary r.fields kept) ∧
    ∀ kept, Json.IsDictionary r.fields kept →
      (r.keys.Nodup → r.Recovers kept) ∧
      (¬ r.keys.Nodup → kept.length < r.findings.fileCount ∧
        (kept.map (·.2.itemCount)).sum < r.findings.count) := by
  obtain ⟨root, d, -, hfind, rfl⟩ := run_eq_ok_iff.mp h
  exact ⟨rfl, Report.map_fields _, fun x hx y hy => Report.mem_text_of_display_eq hx hy,
    Report.nodup_keys, Json.exists_isDictionary _,
    fun kept => Report.recovers_or_loses fun e he => Report.entry_ne_nil_reportOn hfind he⟩

section Bytes

open Discovery

/-- The names of two pages, with different bytes before the extension that are no text. -/
def byteNames : FileName × FileName :=
  (⟨[0xFE, 0x2E, 0x6D, 0x64], by decide⟩, ⟨[0xFF, 0x2E, 0x6D, 0x64], by decide⟩)

/-- These pages below a root. -/
def byteTree : FileSystem :=
  ⟨[(.letters 0, .directory [(byteNames.1, .file .empty), (byteNames.2, .file .empty)])], []⟩

/-- The options of a run below that root. -/
def byteConfig : Config := { root := .ofNames [.letters 0] }

lemma resolve_byteTree : DocRoot.resolve byteTree (.ofNames [.letters 0]) = .ok pageRoot := by
  have hdir : byteTree.node? pageRoot.canonical = some (.directory
      [(byteNames.1, .file .empty), (byteNames.2, .file .empty)]) := rfl
  obtain ⟨hlocate, hreal⟩ := FileSystem.locate_ofNames_of_node? hdir rfl (by decide)
  exact DocRoot.resolve_ofNames hlocate hreal hdir

lemma isWanted_byteTree {n : FileName} (hn : n = byteNames.1 ∨ n = byteNames.2) :
    IsWanted byteTree pageRoot byteConfig .all false [] [n] where
  isFile := by rcases hn with rfl | rfl <;> exact ⟨_, rfl⟩
  inDirectories _ hs hne := by
    rcases hn with rfl | rfl
    · exact FileSystem.exists_directory_of_prefix (x := .file .empty) rfl hs hne
    · exact FileSystem.exists_directory_of_prefix (x := .file .empty) rfl hs hne
  depth := show 1 ≤ 64 by decide
  notSkipped := fun _ h => nomatch h
  notArchived := fun h => nomatch h
  selected := rfl
  kept _ _ := rfl

/-- Both names are reported, under one key. -/
lemma exists_run_byteTree : ∃ r, Check.filenames.run byteTree byteConfig = .ok r ∧
    ∃ x ∈ r.findings.entries, ∃ y ∈ r.findings.entries, x ≠ y ∧ x.1.display = y.1.display := by
  obtain ⟨d, hfind⟩ := @exists_find_eq_ok byteConfig [] byteTree pageRoot .all false rfl
  have hfile : ∀ n, n = byteNames.1 ∨ n = byteNames.2 → sourceFile pageRoot [n] ∈ d.files := by
    intro n hn
    refine (mem_files_unfollowed (DocRoot.resolve_eq_ok resolve_byteTree) rfl
      (starts_of_name (by decide)) rfl hfind).mpr ⟨[n], isWanted_byteTree hn, rfl, ?_, rfl⟩
    rcases hn with rfl | rfl <;> decide
  refine ⟨_, Check.run_eq_ok_iff.mpr ⟨pageRoot, d, resolve_byteTree, hfind, rfl⟩,
    _, (Report.mem_entries_reportOn hfind).mpr (Or.inr ⟨_, hfile _ (Or.inl rfl), by decide, rfl⟩),
    _, (Report.mem_entries_reportOn hfind).mpr (Or.inr ⟨_, hfile _ (Or.inr rfl), by decide, rfl⟩),
    by decide, by decide⟩

lemma not_nodup_keys {r : Report} {x y : Path × List Violation} (hx : x ∈ r.findings.entries)
    (hy : y ∈ r.findings.entries) (hne : x ≠ y) (h : x.1.display = y.1.display) :
    ¬ r.keys.Nodup := fun hnodup => hne (List.inj_on_of_nodup_map hnodup hx hy h)

/-- There a dictionary does lose a file. -/
theorem Check.keys_of_run_byteTree : ∃ r, filenames.run byteTree byteConfig = .ok r ∧
    ∀ kept, Json.IsDictionary r.fields kept → kept.length < r.findings.fileCount := by
  obtain ⟨r, hr, x, hx, y, hy, hne, heq⟩ := exists_run_byteTree
  exact ⟨r, hr, fun kept hkept =>
    ((keys_of_run hr).2.2.2.2.2 kept hkept).2 (not_nodup_keys hx hy hne heq) |>.1⟩

/-- **Keys may be the same** for different files. -/
theorem Check.exists_not_nodup_keys :
    ∃ r, filenames.run byteTree byteConfig = .ok r ∧ ¬ r.keys.Nodup := by
  obtain ⟨r, hr, x, hx, y, hy, hne, heq⟩ := exists_run_byteTree
  exact ⟨r, hr, not_nodup_keys hx hy hne heq⟩

end Bytes

end DocLint
