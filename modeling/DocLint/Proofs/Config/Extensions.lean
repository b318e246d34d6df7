/-
The files that a configured extension selects.

* `dotted` is an extension with the dot that it is kept with; `extension?_eq_ite`: an extension is
  kept as the lower case of that, without the blanks around it.
* `selects_filterMap_iff`: a list of extensions selects what one of them selects.
* `selects_configured_iff`: **a configured extension selects the names that end in it**, unless
  the extension opens on a final sigma and the name has a word before it. The extension is put in
  lower case by itself and the name as a whole, and these two then end in different sigmas.
-/
import Mathlib.Data.List.Basic
import Mathlib.Tactic.Common
import DocLint.Discovery.Basic
import DocLint.Proofs.Text.Sigma

namespace DocLint.Selection

open Text (lowercase opensOnFinalSigma wordGoesOn)

variable {e : List Char} {n : FileName}

/-- An extension with a dot, which stands in front of it if it does not start with one. -/
def dotted : List Char → List Char
  | '.' :: e => '.' :: e
  | e => '.' :: e

/-- Whether a sigma that is medial in the lower case of an extension is final in that of a name,
which is a stem with the extension. -/
def TurnsSigma (stem e : List Char) : Prop :=
  wordGoesOn stem.reverse = true ∧ opensOnFinalSigma (dotted e) = true

instance (stem e : List Char) : Decidable (TurnsSigma stem e) :=
  inferInstanceAs (Decidable (_ ∧ _))

/-! ### The form in which an extension is kept -/

lemma dotted_of_head?_ne (h : e.head? ≠ some '.') : dotted e = '.' :: e := by
  rw [dotted]
  rintro d rfl
  exact h rfl

/-- A dot is its own lower case, and makes no difference to what stands behind it. -/
lemma lowercase_dot_cons (e : List Char) : lowercase ('.' :: e) = '.' :: lowercase e := by
  have hclasses : '.' ≠ Text.capitalSigma ∧ Text.lowercaseChar '.' = ['.'] ∧
      Text.isCaseIgnorable '.' = true := by decide +kernel
  obtain ⟨hsigma, hlower, hignorable⟩ := hclasses
  rw [lowercase, Text.lowercaseAfter, if_neg hsigma, hlower, if_pos hignorable]
  rfl

/-- Only behind a dot the lower case of a text starts with one. -/
lemma head?_lowercase_ne (h : e.head? ≠ some '.') : (lowercase e).head? ≠ some '.' := by
  intro hdot
  obtain ⟨t, ht⟩ := List.head?_eq_some_iff.mp hdot
  have hfront : ['.'] <+: lowercase e := ⟨t, ht.symm⟩
  obtain ⟨v, ⟨u, rfl⟩, hv⟩ := (Text.prefix_lowercase_iff (by decide) (by decide)).mp hfront
  obtain ⟨c, rfl, hc⟩ := List.map_eq_singleton_iff.mp hv
  exact h (congrArg some (Text.eq_dot_of_toLower_eq hc))

lemma lowercase_dotted (e : List Char) : lowercase (dotted e) = dotted (lowercase e) := by
  by_cases h : e.head? = some '.'
  · obtain ⟨d, rfl⟩ := List.head?_eq_some_iff.mp h
    rw [dotted, lowercase_dot_cons, dotted]
  · rw [dotted_of_head?_ne h, dotted_of_head?_ne (head?_lowercase_ne h), lowercase_dot_cons]

lemma lowercase_eq_nil_iff : lowercase e = [] ↔ e = [] := by
  rw [Text.lowercase_eq_iff (by decide), List.map_eq_nil_iff]

lemma lowercase_eq_dot_iff : lowercase e = ['.'] ↔ e = ['.'] := by
  rw [Text.lowercase_eq_iff (by decide), List.map_eq_singleton_iff]
  constructor
  · rintro ⟨c, rfl, hlower⟩
    rw [Text.eq_dot_of_toLower_eq hlower]
  · rintro rfl
    exact ⟨'.', rfl, by decide⟩

/-- **The form in which an extension is kept**: its lower case without the blanks around it, with
the dot. What is blank or a mere dot is none. -/
lemma extension?_eq_ite (raw : String) : extension? raw =
    if Text.trim raw.toList = [] ∨ Text.trim raw.toList = ['.'] then none
    else some (String.ofList (lowercase (dotted (Text.trim raw.toList)))) := by
  simp only [extension?, lowercase_dotted, ← lowercase_eq_nil_iff (e := Text.trim raw.toList),
    ← lowercase_eq_dot_iff (e := Text.trim raw.toList)]
  generalize lowercase (Text.trim raw.toList) = w
  split
  · exact (if_pos (Or.inl rfl)).symm
  · exact (if_pos (Or.inr rfl)).symm
  · next hne =>
      rw [if_neg (by rintro (h | h); exacts [List.cons_ne_nil _ _ h, hne (List.cons.inj h).2])]
      rfl
  · next w hnil hdot hne =>
      rw [if_neg (by rintro (h | h); exacts [hnil h, hdot h]), dotted]
      exact hne

/-- What has no blanks around it is kept as a whole. -/
lemma extension?_eq {e : String} (htrim : Text.trim e.toList = e.toList) (hne : e ≠ "")
    (hdot : e ≠ ".") :
    extension? e = some (String.ofList (lowercase (dotted e.toList))) := by
  rw [extension?_eq_ite, htrim, if_neg]
  rintro (h | h)
  · exact hne (String.toList_injective h)
  · exact hdot (String.toList_injective h)

/-! ### Selected names -/

/-- A list of extensions selects what one of them selects by itself. -/
lemma selects_filterMap_iff (es : List String) (n : FileName) :
    (withExtensions (es.filterMap extension?)).selects n = true ↔
      ∃ e ∈ es, (withExtensions ([e].filterMap extension?)).selects n = true := by
  simp only [selects, List.any_eq_true, List.mem_filterMap, List.mem_singleton]
  constructor
  · rintro ⟨k, ⟨e, he, hk⟩, hsuffix⟩
    exact ⟨e, he, k, ⟨e, rfl, hk⟩, hsuffix⟩
  · rintro ⟨e, he, k, ⟨_, rfl, hk⟩, hsuffix⟩
    exact ⟨k, ⟨_, he, hk⟩, hsuffix⟩

/-- One extension selects the names that end in it in lower case, the name as a whole. -/
lemma selects_singleton_iff {e : String} (htrim : Text.trim e.toList = e.toList) (hne : e ≠ "")
    (hdot : e ≠ ".") (n : FileName) :
    (withExtensions ([e].filterMap extension?)).selects n = true ↔
      lowercase (dotted e.toList) <:+ lowercase n.text := by
  simp only [List.filterMap_cons_some (extension?_eq htrim hne hdot), List.filterMap_nil, selects,
    List.any_cons, List.any_nil, Bool.or_false, String.toList_ofList, List.isSuffixOf_iff_suffix]

/-- **What a configured extension selects**: let it have no blanks around it and be neither empty
nor a mere dot, and let a name be a stem with that extension. Unless the stem ends in a word and the
extension opens on a sigma that no word follows, every list with the extension selects the name; in
that case the extension by itself does not. -/
theorem selects_configured_iff (c : Config) {e : String} {es : List String} {stem : List Char}
    {n : FileName} (htrim : Text.trim e.toList = e.toList) (hne : e ≠ "") (hdot : e ≠ ".")
    (hmem : e ∈ es) (hname : n.text = stem ++ dotted e.toList) :
    ((withExtensions (c.withExtensions [e]).extensions).selects n = true ↔
      ¬ TurnsSigma stem e.toList) ∧
    (¬ TurnsSigma stem e.toList →
      (withExtensions (c.withExtensions es).extensions).selects n = true) := by
  have hiff : (withExtensions ([e].filterMap extension?)).selects n = true ↔
      ¬ TurnsSigma stem e.toList := by
    rw [selects_singleton_iff htrim hne hdot, hname]
    exact Text.suffix_lowercase_append_iff
  refine ⟨hiff, fun h => ?_⟩
  rw [Config.withExtensions, selects_filterMap_iff]
  exact ⟨e, hmem, hiff.mpr h⟩

/-- A name that ends in a sigma and a letter behind it. -/
def medialName : FileName := ⟨Text.Utf8.encode "a.\u03a3b".toList, by decide⟩

/-- Behind the sigma the word goes on, so it is the same one in the extension and in the name. -/
theorem selects_configured_iff_medialName :
    medialName.text = ['a'] ++ dotted "\u03a3b".toList ∧
    (withExtensions (({} : Config).withExtensions ["md", "\u03a3b"]).extensions).selects
      medialName = true := by
  have htext : medialName.text = ['a'] ++ dotted "\u03a3b".toList := by decide +kernel
  refine ⟨htext, (selects_configured_iff {} (by decide +kernel) (by decide) (by decide) ?_
    htext).2 (by decide +kernel)⟩
  exact List.mem_cons_of_mem _ List.mem_cons_self

/-- A name that ends in a sigma. -/
def finalName : FileName := ⟨Text.Utf8.encode "a.\u03a3".toList, by decide⟩

/-- **An extension that does not select a name that is written with it**: the sigma by itself is
medial, as there is no letter before it, and the one that ends the name is final. -/
theorem not_selects_finalName :
    (Text.trim "\u03a3".toList = "\u03a3".toList ∧ "\u03a3" ≠ "" ∧ "\u03a3" ≠ "." ∧
      '/' ∉ "\u03a3".toList) ∧
    finalName.text = ['a'] ++ dotted "\u03a3".toList ∧
    (withExtensions (({} : Config).withExtensions ["\u03a3"]).extensions).selects
      finalName = false := by
  refine ⟨⟨by decide +kernel, by decide, by decide, by decide⟩, by decide +kernel, ?_⟩
  decide +kernel

end DocLint.Selection
