/-
The names whose content is looked at by default, and what the naming policy says of them.

* `selects_iff`: these are the names with the extension of pages, in any case, and those that are
  nothing but that extension.
* `check_of_selects`: **among them** the policy passes the index page and the pages, and those that
  are nothing but the extension: they have none for the policy.
-/
import Mathlib.Data.List.Basic
import Mathlib.Tactic.Common
import DocLint.Discovery.Basic
import DocLint.Proofs.Naming.Policy

namespace DocLint.Naming

open Text.Utf8 (decodeLossy encode)

variable {n : FileName}

/-- The selection of the files whose content is looked at by default. -/
def defaultSelection : Selection :=
  .withExtensions ({} : Config).extensions

/-- Whether a name is nothing but the extension of pages, in any case. -/
def IsBareExtension (n : FileName) : Prop :=
  n.text.map Char.toLower = ".md".toList

instance (n : FileName) : Decidable (IsBareExtension n) :=
  inferInstanceAs (Decidable (n.text.map Char.toLower = ".md".toList))

lemma isPlain_md : Text.IsPlain "md".toList := by decide

lemma isPlain_dot_md : Text.IsPlain ".md".toList := by decide

/-- A text that is the extension in some case is a dot with its letters. -/
lemma exists_eq_dot_cons {v : List Char} (h : v.map Char.toLower = ".md".toList) :
    ∃ w, v = '.' :: w ∧ w.map Char.toLower = "md".toList := by
  obtain ⟨c, w, rfl, hc, hw⟩ := List.map_eq_cons_iff.mp h
  exact ⟨w, by rw [Text.eq_dot_of_toLower_eq hc], hw⟩

lemma dot_notMem_of_map_toLower {w : List Char} (h : w.map Char.toLower = "md".toList) :
    '.' ∉ w := by
  intro hmem
  have hdot : '.' ∈ w.map Char.toLower := List.mem_map.mpr ⟨'.', hmem, rfl⟩
  rw [h] at hdot
  exact absurd hdot (by decide)

lemma selects_defaultSelection_iff :
    defaultSelection.selects n = true ↔
      ∃ v, v <:+ n.text ∧ v.map Char.toLower = ".md".toList := by
  rw [← Text.suffix_lowercase_iff isPlain_dot_md, ← List.isSuffixOf_iff_suffix]
  simp [defaultSelection, Selection.selects]

/-- **The selected names**: the extension of pages is read off the end of the whole name. -/
lemma selects_iff :
    defaultSelection.selects n = true ↔
      (∃ ext, n.extension? = some ext ∧ Text.lowercase (decodeLossy ext) = "md".toList) ∨
        IsBareExtension n := by
  rw [selects_defaultSelection_iff]
  constructor
  · rintro ⟨v, ⟨u, hu⟩, hv⟩
    obtain ⟨w, rfl, hw⟩ := exists_eq_dot_cons hv
    -- A dot that opens the name is the only one that starts no extension.
    rcases eq_or_ne u [] with rfl | hne
    · exact Or.inr (by rw [IsBareExtension, ← hu]; exact hv)
    · obtain ⟨ext, hext, rfl⟩ := Option.map_eq_some_iff.mp
        (FileName.text_extension?_eq_some_iff.mpr
          ⟨u, hne, hu.symm, dot_notMem_of_map_toLower hw⟩)
      exact Or.inl ⟨ext, hext, (Text.lowercase_eq_iff isPlain_md).mpr hw⟩
  · rintro (⟨ext, hext, hmd⟩ | h)
    · obtain ⟨u, -, htext, -⟩ := FileName.exists_text_eq hext
      refine ⟨'.' :: decodeLossy ext, ⟨u, htext.symm⟩, ?_⟩
      rw [List.map_cons, (Text.lowercase_eq_iff isPlain_md).mp hmd]
      rfl
    · exact ⟨n.text, List.suffix_rfl, h⟩

/-- A name that is nothing but the extension has none, since the dot opens it. -/
lemma IsBareExtension.extension?_eq_none (h : IsBareExtension n) : n.extension? = none := by
  obtain ⟨w, htext, hw⟩ := exists_eq_dot_cons h
  cases hext : n.extension? with
  | none => rfl
  | some ext =>
      obtain ⟨u, hu, hread, -⟩ := FileName.exists_text_eq hext
      rcases List.cons_eq_append_iff.mp (htext.symm.trans hread) with ⟨hnil, -⟩ | ⟨u', -, rfl⟩
      · exact absurd hnil hu
      · exact absurd (List.mem_append_right u' List.mem_cons_self) (dot_notMem_of_map_toLower hw)

/-- **The policy for the selected names**: a name is selected if it has the extension of pages in
any case or is nothing but that; of these the policy allows the index page, the pages under any
other name and those that are nothing but the extension. -/
theorem check_of_selects (n : FileName) :
    (defaultSelection.selects n = true ↔
      (∃ ext, n.extension? = some ext ∧ Text.lowercase (decodeLossy ext) = "md".toList) ∨
        IsBareExtension n) ∧
    (defaultSelection.selects n = true →
      (check ⟨n.bytes⟩ = [] ↔
        (n.text = indexName ∨ IsPage n.text ∧ n.text ≠ "readme.md".toList) ∨
          IsBareExtension n)) := by
  refine ⟨selects_iff, fun h => ?_⟩
  rw [check_bytes_eq_nil_iff]
  rcases selects_iff.mp h with ⟨ext, hext, hmd⟩ | hbare
  · have hnot : ¬ IsBareExtension n := fun hbare => by
      rw [hbare.extension?_eq_none] at hext
      cases hext
    rw [isAllowed_iff_of_md hext hmd, or_iff_left hnot]
  · exact iff_of_true (isAllowed_of_extension?_eq_none hbare.extension?_eq_none)
      (Or.inr hbare)

/-- A name that is no UTF-8, with the extension of pages in another case. -/
def strayName : FileName := ⟨[0xFF, 0x2E, 0x4D, 0x64], by decide⟩

/-- It is selected, and the policy says what is wrong with it. -/
theorem check_of_selects_strayName :
    defaultSelection.selects strayName = true ∧ check ⟨strayName.bytes⟩ ≠ [] := by
  have hselects : defaultSelection.selects strayName = true := by decide +kernel
  refine ⟨hselects, ((check_of_selects strayName).2 hselects).not.mpr ?_⟩
  decide

/-- The name that is nothing but the extension. -/
def bareExtension : FileName := ⟨encode ".md".toList, by decide⟩

/-- **A selected name that the policy passes over**, though it is no page. -/
theorem check_bareExtension :
    defaultSelection.selects bareExtension = true ∧ check ⟨bareExtension.bytes⟩ = [] ∧
      bareExtension.text ≠ indexName ∧ ¬ IsPage bareExtension.text :=
  ⟨by decide +kernel, by decide +kernel, by decide, by decide⟩

end DocLint.Naming
