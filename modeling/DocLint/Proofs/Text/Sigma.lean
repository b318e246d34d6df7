/-
What stands before a text, and its lower case.

* `wordAfter_false`: whether a word has begun before a text is read off the last character there
  that case does not ignore.
* `opensOnFinalSigma`: the first character of a text that case does not ignore is a capital sigma,
  and no word goes on behind it. `lowercaseAfter_eq_iff`: these are the texts whose lower case
  depends on what stands before them.
* `suffix_lowercase_append_iff`: so **the lower case of an end of a text** is not an end of the
  lower case exactly if the end is such a text behind a word.
-/
import Mathlib.Data.List.Induction
import Mathlib.Data.List.Infix
import Mathlib.Tactic.Common
import DocLint.Proofs.Text.Lowercase

namespace DocLint.Text

variable {c : Char} {s t : List Char}

/-! ### The text before -/

lemma wordGoesOn_cons (c : Char) (s : List Char) :
    wordGoesOn (c :: s) = if isCaseIgnorable c then wordGoesOn s else isCased c := by
  cases h : isCaseIgnorable c with
  | false => rw [wordGoesOn, List.find?_cons_of_pos (by rw [h]; rfl)]; rfl
  | true => rw [wordGoesOn, List.find?_cons_of_neg (by rw [h]; decide)]; rfl

/-- Whether a word has begun in a text is a matter of its last character that case does not
ignore. -/
lemma wordAfter_false (s : List Char) : wordAfter false s = wordGoesOn s.reverse := by
  induction s using List.reverseRecOn with
  | nil => rfl
  | append_singleton s c ih =>
      rw [List.reverse_concat, wordGoesOn_cons, ← ih, wordAfter, List.foldl_append]
      rfl

/-! ### Texts that look back -/

/-- Whether the first character that case does not ignore is a capital sigma behind which no word
goes on. -/
def opensOnFinalSigma : List Char → Bool
  | [] => false
  | c :: cs =>
    if c = capitalSigma then !wordGoesOn cs else isCaseIgnorable c && opensOnFinalSigma cs

lemma capitalSigma_classes :
    isCaseIgnorable capitalSigma = false ∧ isCased capitalSigma = true := by
  decide +kernel

/-- Either way a text has a lower case of the same length. -/
lemma length_lowercaseAfter (b b' : Bool) (t : List Char) :
    (lowercaseAfter b t).length = (lowercaseAfter b' t).length := by
  induction t generalizing b b' with
  | nil => rfl
  | cons c t ih =>
      rw [lowercaseAfter, lowercaseAfter, List.length_append, List.length_append]
      congr 1
      · split_ifs <;> rfl
      · exact ih _ _

/-- **The texts whose lower case depends on what stands before them.** -/
lemma lowercaseAfter_eq_iff :
    lowercaseAfter true t = lowercaseAfter false t ↔ opensOnFinalSigma t = false := by
  induction t with
  | nil => exact iff_of_true rfl rfl
  | cons c t ih =>
      rw [lowercaseAfter, lowercaseAfter, opensOnFinalSigma]
      by_cases hsigma : c = capitalSigma
      · -- Behind the sigma there is a word either way, so only the sigma itself may differ.
        subst hsigma
        obtain ⟨hignorable, hcased⟩ := capitalSigma_classes
        simp only [if_true, hignorable, hcased, Bool.false_eq_true, if_false, Bool.true_and,
          Bool.false_and, List.append_cancel_right_eq]
        cases wordGoesOn t <;> decide
      · simp only [if_neg hsigma, List.append_cancel_left_eq]
        cases isCaseIgnorable c with
        | true => exact ih
        | false => exact iff_of_true rfl rfl

/-- **The lower case of an end of a text** is an end of the lower case, unless it opens on a final
sigma and stands behind a word. -/
lemma suffix_lowercase_append_iff :
    lowercase t <:+ lowercase (s ++ t) ↔
      ¬ (wordGoesOn s.reverse = true ∧ opensOnFinalSigma t = true) := by
  obtain ⟨front, hfront⟩ := exists_lowercaseAfter_append false s t
  rw [lowercase, lowercase, hfront, wordAfter_false]
  have hiff : lowercaseAfter false t <:+ front ++ lowercaseAfter (wordGoesOn s.reverse) t ↔
      lowercaseAfter false t = lowercaseAfter (wordGoesOn s.reverse) t := by
    have hlength := length_lowercaseAfter false (wordGoesOn s.reverse) t
    constructor
    · intro h
      exact (List.suffix_of_suffix_length_le h (List.suffix_append _ _) hlength.le).eq_of_length
        hlength
    · intro h
      rw [h]
      exact List.suffix_append _ _
  rw [hiff]
  cases wordGoesOn s.reverse with
  | false => simp
  | true => rw [eq_comm, lowercaseAfter_eq_iff]; simp

end DocLint.Text
