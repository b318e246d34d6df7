/-
The form in which extensions are kept.

* `IsExtension`, `keptForm`: what is more than blanks and a dot is an extension, and it is kept in
  lower case, trimmed and with a dot in front; `extension?_eq_ite_keptForm` says so of what is read.
* `IsKept`: the shape of what is kept, `isKept_keptForm`; `IsKept.extension?_eq`: what has this
  shape is kept as it is.
* `withExtensions_normal`: **a list of extensions is in normal form**: putting it there again
  changes nothing, it has the extensions among what it is made of, in their order, and each of them
  has that shape.
-/
import Mathlib.Data.List.Basic
import Mathlib.Tactic.Common
import DocLint.Proofs.Config.Extensions
import DocLint.Proofs.Text.Lowered

namespace DocLint.Selection

open Text (lowercase trim)

variable {e : List Char} {raw k : String}

/-- What is an extension: more than blanks, and more than a dot between blanks. -/
def IsExtension (raw : String) : Prop :=
  trim raw.toList ≠ [] ∧ trim raw.toList ≠ ['.']

instance (raw : String) : Decidable (IsExtension raw) :=
  inferInstanceAs (Decidable (_ ∧ _))

/-- The form in which an extension is kept. -/
def keptForm (raw : String) : String :=
  String.ofList (lowercase (dotted (trim raw.toList)))

/-- The shape of an extension that is kept. -/
structure IsKept (k : String) : Prop where
  trim_eq : trim k.toList = k.toList
  lowercase_eq : lowercase k.toList = k.toList
  head?_eq : k.toList.head? = some '.'
  one_lt_length : 1 < k.toList.length

/-! ### One extension -/

/-- What is read is kept exactly if it is an extension. -/
lemma extension?_eq_ite_keptForm (raw : String) :
    extension? raw = if IsExtension raw then some (keptForm raw) else none := by
  rw [extension?_eq_ite]
  by_cases h : IsExtension raw
  · rw [if_neg (not_or.mpr h), if_pos h]
    rfl
  · rw [if_pos (or_iff_not_and_not.mpr h), if_neg h]

lemma head?_dotted (e : List Char) : (dotted e).head? = some '.' := by
  rw [dotted.eq_def]
  split <;> rfl

lemma one_lt_length_dotted (hne : e ≠ []) (hdot : e ≠ ['.']) : 1 < (dotted e).length := by
  by_cases h : e.head? = some '.'
  · obtain ⟨d, rfl⟩ := List.head?_eq_some_iff.mp h
    have hd : d ≠ [] := fun hnil => hdot (by rw [hnil])
    exact Nat.succ_lt_succ (List.length_pos_of_ne_nil hd)
  · rw [dotted_of_head?_ne h]
    exact Nat.succ_lt_succ (List.length_pos_of_ne_nil hne)

/-- A dot in front is not blank, so what is trimmed stays so behind it. -/
lemma trim_dotted (h : trim e = e) : trim (dotted e) = dotted e := by
  by_cases hhead : e.head? = some '.'
  · obtain ⟨d, rfl⟩ := List.head?_eq_some_iff.mp hhead
    exact h
  · obtain ⟨-, hlast⟩ := Text.trim_eq_self_iff.mp h
    rw [dotted_of_head?_ne hhead]
    refine Text.trim_eq_self_iff.mpr ⟨fun c hc => ?_, fun c hc => ?_⟩
    · cases hc
      decide
    · rcases eq_or_ne e [] with rfl | hne
      · cases hc
        decide
      · rw [List.getLast?_cons_of_ne_nil hne] at hc
        exact hlast c hc

lemma isKept_keptForm (h : IsExtension raw) : IsKept (keptForm raw) := by
  obtain ⟨hne, hdot⟩ := h
  have hform : (keptForm raw).toList = dotted (lowercase (trim raw.toList)) := by
    rw [keptForm, String.toList_ofList, lowercase_dotted]
  constructor
  · rw [hform]
    exact trim_dotted (Text.trim_lowercase (Text.trim_trim _))
  · rw [hform, lowercase_dotted, Text.lowercase_lowercase]
  · rw [hform]
    exact head?_dotted _
  · rw [hform]
    exact one_lt_length_dotted (lowercase_eq_nil_iff.not.mpr hne) (lowercase_eq_dot_iff.not.mpr hdot)

/-- **What is kept is kept as it is.** -/
lemma IsKept.extension?_eq (h : IsKept k) : extension? k = some k := by
  obtain ⟨d, hd⟩ := List.head?_eq_some_iff.mp h.head?_eq
  have hlong := h.one_lt_length
  have hform : keptForm k = k := by
    have hdotted : dotted k.toList = k.toList := by
      rw [hd]
      rfl
    rw [keptForm, h.trim_eq, hdotted, h.lowercase_eq, String.ofList_toList]
  have hext : IsExtension k := by
    constructor <;> rw [h.trim_eq] <;> intro hshort <;> rw [hshort] at hlong
    · exact absurd hlong (by decide)
    · exact absurd hlong (by decide)
  rw [extension?_eq_ite_keptForm, if_pos hext, hform]

/-! ### A list of extensions -/

/-- The extensions that are kept are those among what is read, in the same order. -/
lemma filterMap_extension?_eq (raw : List String) :
    raw.filterMap extension? = (raw.filter (IsExtension ·)).map keptForm := by
  rw [← List.filterMap_eq_map, List.filterMap_filter]
  refine List.filterMap_congr fun r _ => ?_
  simp only [extension?_eq_ite_keptForm, decide_eq_true_eq, Function.comp_apply]

lemma isKept_of_mem_filterMap {raw : List String} (h : k ∈ raw.filterMap extension?) :
    IsKept k := by
  rw [filterMap_extension?_eq] at h
  obtain ⟨r, hr, rfl⟩ := List.mem_map.mp h
  exact isKept_keptForm (of_decide_eq_true (List.mem_filter.mp hr).2)

/-- **A list of extensions is in normal form**, whatever it is made of. -/
theorem withExtensions_normal (c : Config) (raw : List String) :
    (c.withExtensions raw).withExtensions (c.withExtensions raw).extensions =
      c.withExtensions raw ∧
    (c.withExtensions raw).extensions = (raw.filter (IsExtension ·)).map keptForm ∧
    ∀ k ∈ (c.withExtensions raw).extensions, IsKept k := by
  refine ⟨?_, filterMap_extension?_eq raw, fun k => isKept_of_mem_filterMap⟩
  have hkept : (raw.filterMap extension?).filterMap extension? = raw.filterMap extension? := by
    rw [List.filterMap_congr fun k hk => (isKept_of_mem_filterMap hk).extension?_eq]
    exact List.filterMap_some
  exact congrArg (fun es => { c with extensions := es }) hkept

end DocLint.Selection
