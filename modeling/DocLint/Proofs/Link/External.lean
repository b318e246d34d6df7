/-
The targets that leave the documentation.

* `isPlain_of_mem_schemes`: no scheme has a letter above which there is another character, and none
  ends within the lower case of one.
* `isExternal_iff`: so **external targets** are those that begin with a scheme up to the case of
  ASCII letters, although the whole target is put in full lower case to tell.
-/
import Mathlib.Data.List.Infix
import Mathlib.Tactic.Common
import DocLint.Link.Target
import DocLint.Proofs.Text.Lowercase

namespace DocLint.Link

lemma isPlain_of_mem_schemes :
    ∀ scheme ∈ schemes, Text.IsPlain scheme ∧ scheme.getLast? ≠ some 'i' := by
  decide +kernel

/-- **External targets**: a target is external exactly if, without the blanks around it, it begins
with one of the schemes up to the case of ASCII letters, whatever follows. -/
theorem isExternal_iff (target : List Char) :
    isExternal target = true ↔ ∃ scheme ∈ schemes, ∃ front,
      front <+: Text.trim target ∧ front.map Char.toLower = scheme := by
  simp only [isExternal, List.any_eq_true, List.isPrefixOf_iff_prefix]
  refine exists_congr fun scheme => and_congr_right fun hscheme => ?_
  obtain ⟨hplain, hlast⟩ := isPlain_of_mem_schemes scheme hscheme
  exact Text.prefix_lowercase_iff hplain hlast

/-- The dotted capital I is no letter of a scheme; behind one, anything may stand. -/
example : isExternal "\u00a0MailTo:\u0130".toList = true ∧
    isExternal "ma\u0130lto:a".toList = false := by decide +kernel

end DocLint.Link
